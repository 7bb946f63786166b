import DatasetDepot.Random.Uniform

/-!
Standard normal draws.  Two uniform draws give a radius and an angle; the normal
value is the first coordinate of the point they name.
-/

namespace DatasetDepot.Drawing

/-- The least step above one in single precision: no radius is infinite. -/
def leastUniform : Single := Single.ofBits 0x34000000

def circleConstant : Single := Single.ofBits 0x40490FDB

def standardNormal : Drawing Single := do
  let drawn ← between 0.0 1.0
  let uniform := if drawn < leastUniform then leastUniform else drawn
  let turn ← between 0.0 1.0
  let radius := (-2.0 * uniform.log).sqrt
  return radius * (2.0 * circleConstant * turn).cos

end DatasetDepot.Drawing
