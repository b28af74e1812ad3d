import RowMajor.Operand.Equality
import RowMajor.Proofs.Buffer.Exactness
import RowMajor.Proofs.Buffer.Transparency
import RowMajor.Proofs.Operations.Safety
import RowMajor.Proofs.Pick.Undo
import RowMajor.Proofs.Section.Dropping
import RowMajor.Proofs.Section.Filling
import RowMajor.Proofs.Select.Undo
import RowMajor.Proofs.Keep.Merging
import RowMajor.Proofs.Keep.Undo
import RowMajor.Proofs.Search.Positions
import RowMajor.Proofs.Search.Consumption
import RowMajor.Proofs.Search.Bytes
import RowMajor.Proofs.Search.Conversion
import RowMajor.Proofs.Parallel.Representation
import RowMajor.Proofs.Rotation.Turning
import RowMajor.Proofs.Rotation.Reversals
import RowMajor.Proofs.Rotation.Cycling
import RowMajor.Proofs.Rotation.Overwriting
import RowMajor.Proofs.Rotation.Shifting
import RowMajor.Proofs.Frames.Rotation
import RowMajor.Proofs.Frames.Restoration
import RowMajor.Proofs.Frames.WholeRotation
import RowMajor.Proofs.Operand.RoundTrip
import RowMajor.Proofs.Windows.Sections
import RowMajor.Proofs.Keep.Gathering
import RowMajor.Proofs.Pick.Filling
import RowMajor.Proofs.Select.Points
import RowMajor.Proofs.Keep.Replicating
import RowMajor.Proofs.Reshape.Reranking
import RowMajor.Proofs.Reshape.Undo
import RowMajor.Proofs.Search.Selection
import RowMajor.Proofs.Section.Joining
import RowMajor.Proofs.Section.Resizing
import RowMajor.Proofs.Frames.Visiting
import RowMajor.Proofs.Search.Coding
import RowMajor.Proofs.Value.Stacking
