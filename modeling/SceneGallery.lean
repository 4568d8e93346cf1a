import SceneGallery.Main
import SceneGallery.Proofs.Text.Arrow
import SceneGallery.Proofs.Text.Lines
import SceneGallery.Proofs.Text.Number
import SceneGallery.Proofs.Library.Rendering
import SceneGallery.Proofs.Library.Entry
import SceneGallery.Proofs.Library.WrittenField
import SceneGallery.Proofs.Library.Outcome
import SceneGallery.Proofs.Library.ReadBack
import SceneGallery.Proofs.Library.RoundTrip
import SceneGallery.Proofs.Library.Merged
import SceneGallery.Proofs.Event.Visit
import SceneGallery.Proofs.Event.Locality
import SceneGallery.Proofs.Event.Machine
import SceneGallery.Proofs.Event.Provenance
import SceneGallery.Proofs.Library.Captured
import SceneGallery.Proofs.Library.Invariant
import SceneGallery.Proofs.Library.MergedAgain
import SceneGallery.Proofs.Library.NormalForm
import SceneGallery.Proofs.Library.SecondRun
import SceneGallery.Proofs.Library.Verbatim
import SceneGallery.Proofs.Storage.Path
import SceneGallery.Proofs.Storage.Place
import SceneGallery.Proofs.Storage.Writes
import SceneGallery.Proofs.Gallery.Filename
import SceneGallery.Proofs.Gallery.Attempted
import SceneGallery.Proofs.Gallery.Numbering
import SceneGallery.Proofs.Gallery.Outputs
import SceneGallery.Proofs.Gallery.Discovered
import SceneGallery.Proofs.Gallery.Truthful
import SceneGallery.Proofs.CommandLine.Updated
import SceneGallery.Proofs.CommandLine.Original
import SceneGallery.Proofs.Gallery.Repeated
import SceneGallery.Proofs.Library.RereadMerge
import SceneGallery.Proofs.CommandLine.SecondConversion
import SceneGallery.Proofs.Gallery.Untouched
import SceneGallery.Proofs.Gallery.AnyOrder
import SceneGallery.Proofs.Library.Copied
import SceneGallery.Proofs.Library.LineChanges
import SceneGallery.Proofs.Library.MergedTwice
import SceneGallery.Proofs.Event.BlockStructure
import SceneGallery.Proofs.Event.LastEnding
import SceneGallery.Proofs.Event.Linked
import SceneGallery.Proofs.Event.Decoration
import SceneGallery.Proofs.Gallery.Endings
import SceneGallery.Proofs.Gallery.Reported
import SceneGallery.Proofs.Library.OneByOne
import SceneGallery.Proofs.Library.Reordered
import SceneGallery.Proofs.Event.Remembered
import SceneGallery.Proofs.Event.LastShown
import SceneGallery.Proofs.Event.Renamed
import SceneGallery.Proofs.Event.PictureNumber
import SceneGallery.Proofs.Library.Siblings
import SceneGallery.Proofs.Library.Anywhere
import SceneGallery.Proofs.Library.Ignored
import SceneGallery.Proofs.Text.Rejoined
import SceneGallery.Proofs.Gallery.SectionStart
import SceneGallery.Proofs.Library.Stopping
import SceneGallery.Proofs.Library.Accesses
