import DatasetDepot.Exercise
import DatasetDepot.Main
import DatasetDepot.Proofs.Depot.Formats
import DatasetDepot.Proofs.Depot.Transparency
import DatasetDepot.Proofs.Fetch.Once
import DatasetDepot.Proofs.Snapshot.Accepted
import DatasetDepot.Proofs.Snapshot.WriteOnce
import DatasetDepot.Proofs.Fetch.Within
import DatasetDepot.Proofs.Fetch.Extraction
import DatasetDepot.Proofs.Atomic
import DatasetDepot.Proofs.Fetch.OwnData
import DatasetDepot.Proofs.Parsing
import DatasetDepot.Proofs.Leading
import DatasetDepot.Proofs.Published.Leftover
import DatasetDepot.Proofs.Compressed.WellFormed
import DatasetDepot.Proofs.Conversion.Erasure
import DatasetDepot.Proofs.Conversion.Layout
import DatasetDepot.Proofs.Division
import DatasetDepot.Proofs.Mismatch
import DatasetDepot.Proofs.Svmlight.Dense
import DatasetDepot.Proofs.Csv.Table
import DatasetDepot.Proofs.Published.Limit
import DatasetDepot.Proofs.Numeric.Double
import DatasetDepot.Proofs.Share
import DatasetDepot.Proofs.Depot.Supply
import DatasetDepot.Proofs.Synthesis
import DatasetDepot.Proofs.Synthesis.Corners
import DatasetDepot.Proofs.Numeric.Single
import DatasetDepot.Proofs.Synthesis.Growth
import DatasetDepot.Proofs.Csv.Position
import DatasetDepot.Proofs.Published.Position
