import SceneGallery.Proofs.Event.Rendered
import SceneGallery.Proofs.Gallery.Batch
import SceneGallery.Proofs.Gallery.Truthful
import SceneGallery.Proofs.Text.Lines
set_option autoImplicit false

namespace SceneGallery

namespace Event

/-- Two lines that are the same but for the number of the event in a header or a dispatch. -/
def SameLine (id other : UInt32) (line again : String) : Prop :=
  line = again ∨ ∃ content, (content = Content.header ∨ content = Content.dispatch) ∧
    line = content.render id ∧ again = content.render other

end Event

namespace Gallery

open Storage

/-- What an event comes to in two runs that end with the given files: the same error, nothing, or
two files with the same conversion, linked to the same event. -/
inductive SameOutcome (left right : FileTree) :
    Except FileError Outcome → Except FileError Outcome → Prop
  | failed (error : FileError) : SameOutcome left right (.error error) (.error error)
  | notApplicable : SameOutcome left right (.ok .notApplicable) (.ok .notApplicable)
  | written {descriptor other : Descriptor} {source : String} {conversion : Event.Conversion}
      (linkage : other.linkage = descriptor.linkage)
      (file : left.readText descriptor.path =
        .ok (convertedText source conversion descriptor.derived))
      (again : right.readText other.path = .ok (convertedText source conversion other.derived))
      (lines : List.Forall₂ (Event.SameLine descriptor.derived other.derived)
        (Text.lines (convertedText source conversion descriptor.derived))
        (Text.lines (convertedText source conversion other.derived))) :
      SameOutcome left right (.ok (.written descriptor)) (.ok (.written other))

/-- An event whose path is free in one order only comes to something else in the other. -/
theorem Batch.differs {settings : Settings} {directory : String} {tree : FileTree}
    {events first second : List String} (batch : Batch settings directory tree events first)
    (other : Batch settings directory tree events second) {i j : Nat} {path source : String}
    {conversion : Event.Conversion} (left : first[i]? = some path)
    (right : second[j]? = some path) (converts : Converts settings tree path source conversion)
    (taken : ¬ IsFree tree (convertedPath path (numberAt settings tree first i)))
    (free : IsFree tree (convertedPath path (numberAt settings tree second j))) :
    ∃ result again,
      ((⟨tree, .initial⟩ : Stage).results settings first)[i]? = some result ∧
      ((⟨tree, .initial⟩ : Stage).results settings second)[j]? = some again ∧
      ∀ left right, ¬ SameOutcome left right result again := by
  obtain ⟨details, refused⟩ := batch.refused left converts taken
  obtain ⟨written, _⟩ := other.written right converts free
  refine ⟨_, _, Batch.results_eq left, Batch.results_eq right, ?_⟩
  rw [refused, written]
  intro left right same
  cases same

section Orders

end Orders

section Crowded

end Crowded

end Gallery

end SceneGallery
