import DatasetDepot.Codec
import DatasetDepot.World

/-!
Downloads that are kept.

The last part of an address names the archive in the cache directory, and the
archive without its extension is the file that is wanted.  Whichever of the two is
there is used; the archive is downloaded and the file decoded only when missing.
-/

namespace DatasetDepot.Fetch

/-- The name of the archive: what follows the last slash, before any query or
fragment. -/
def nameOf? (url : List Char) : Option Name :=
  let address := url.takeWhile fun letter => letter ≠ '?' && letter ≠ '#'
  let name := (address.reverse.takeWhile (· ≠ '/')).reverse
  if name.isEmpty || name.contains ':' then none else some name

/-- The decoded contents of an archive. -/
def decode (codec : Codec) (archive : Path) : Action Bytes := do
  match (← Action.store).read archive with
  | .error .isDirectory =>
      throw (.decompress archive.text (codec.unreadable Refusal.isDirectory.text).text)
  | .error refusal => throw (.io archive.text refusal.text)
  | .ok bytes =>
      match codec.decode bytes with
      | .ok contents => return contents
      | .error damage => throw (.decompress archive.text damage.text)

/-- The file an archive stands for, as far as the disk takes it. -/
def extraction (codec : Codec) (archive : Path) (disk : Disk) : Action Bytes :=
  Action.unlessRefused (disk.spill archive.withoutExtension.unfinished) (.decompress archive.text)
    (decode codec archive)

/-- The file an archive stands for, decoded unless it is there. -/
def unpack (archive : Path) (disk : Disk := .sound) : Action Path := do
  let codec ← liftM (Codec.ofPath archive)
  let target := archive.withoutExtension
  if !(← Action.store).has target then
    Action.writeWhole target (extraction codec archive disk) disk
  return target

/-- The archive behind an address, as far as the disk takes it. -/
def arrival (services : Services) (url : String) (archive : Path) (disk : Disk) : Action Bytes :=
  Action.unlessRefused (disk.spill archive.unfinished) (.download url)
    (Action.download services url)

/-- The file behind an address, downloaded and decoded as far as it is not there. -/
def fetch (services : Services) (cache : Path) (url : String) (disk : Disk := .sound) :
    Action Path := do
  match nameOf? url.toList with
  | none => throw (.invalidParameter "url" s!"`{url}` does not name a file")
  | some name =>
      let archive := cache.join name
      let _ ← liftM (Codec.ofPath archive)
      Action.ensureDirectory cache
      if !(← Action.store).has archive then
        Action.writeWhole archive (arrival services url archive disk) disk
      unpack archive disk

end DatasetDepot.Fetch
