import SceneGallery.Proofs.Gallery.Numbering
import SceneGallery.Proofs.Text.Lines
set_option autoImplicit false

namespace SceneGallery.Gallery

open Storage

/-- What a line of a converted event is written as under a number. -/
inductive WrittenAs (id : UInt32) : Event.Content → String → Prop
  | header : WrittenAs id .header ("CommonEvent " ++ toString id.toNat)
  | dispatch : WrittenAs id .dispatch ("  999([" ++ toString id.toNat ++ "])")
  | verbatim (text : String) : WrittenAs id (.verbatim text) text

theorem writtenAs_render (id : UInt32) (content : Event.Content) :
    WrittenAs id content (content.render id) := by
  cases content with
  | header => exact .header
  | dispatch => exact .dispatch
  | verbatim text => exact .verbatim text

theorem forall₂_writtenAs_render (conversion : Event.Conversion) (id : UInt32) :
    List.Forall₂ (fun line text => WrittenAs id line.content text) conversion.lines
      (conversion.render id) := by
  rw [Event.Conversion.render, List.forall₂_map_right_iff, List.forall₂_same]
  exact fun line _ => writtenAs_render id line.content

/-- A converted event is written line by line, with the ending that its source has. -/
theorem convertedText_eq_join (source : String) (conversion : Event.Conversion) (id : UInt32) :
    convertedText source conversion id =
      String.join ((conversion.render id).map
        (· ++ if "\r\n".toList <:+: source.toList then "\r\n" else "\n")) := by
  rw [convertedText, Text.Layout.join_of_terminated rfl, ← Text.ending_layoutOf]

section Ends

variable {settings : Settings} {tree after : FileTree} {counter used : Counter} {path : String}
  {result : Except FileError Outcome}

theorem Ends.tree_eq (ends : Ends settings tree counter path result after used)
    (unwritten : ∀ descriptor, result ≠ .ok (.written descriptor)) : after = tree := by
  cases ends with
  | written => exact absurd rfl (unwritten _)
  | _ => rfl

theorem Ends.exists_of_written {descriptor : Descriptor}
    (ends : Ends settings tree counter path (.ok (.written descriptor)) after used) :
    ∃ source conversion, Converts settings tree path source conversion ∧
      descriptor = nextDescriptor counter path conversion ∧
      (tree.hasPath descriptor.path && !settings.overwrite) = false ∧
      tree.write descriptor.path
        (convertedText source conversion descriptor.derived).toUTF8 = .ok after := by
  cases ends with
  | written converts free written => exact ⟨_, _, converts, rfl, free, written⟩

end Ends

/-- A converted event is put into the directory of its source. -/
theorem place_of_converted {tree : FileTree} {path source : String} {id : UInt32}
    {location : Location} (sound : tree.WellFormed) (read : tree.readText path = .ok source)
    (target : tree.place? (convertedPath path id) = some location) :
    ∃ place, tree.resolve path = .ok place ∧
      location = place.dropLast ++ [eventFilename id] := by
  obtain ⟨content, bytes⟩ := readBytes_of_readText read
  obtain ⟨place, _, found, there⟩ := FileTree.place_of_readBytes sound bytes
  refine ⟨place, ?_, FileTree.place?_beside (isName_eventFilename id) found target⟩
  rw [FileTree.resolve_of_place found, there]
  rfl

/-- What the conversion of a file leaves behind. Without a written event all files are as they were,
and the counter is too if the event is no scene or could not be converted. A written event is in the
directory of its source under the name of the next number; nothing else has changed, nothing was
there if nothing may be overwritten, and the file has a line for each line of the conversion, with
the number in the header and in the calls, and with the ending that the source uses. -/
theorem convertFile_untouched (settings : Settings) (tree : FileTree) (counter : Counter)
    (path : String) :
    let run := convertFile settings tree counter path
    ((∀ descriptor, run.result ≠ .ok (.written descriptor)) → run.tree = tree) ∧
    (run.result = .ok .notApplicable → run.counter = counter) ∧
    (∀ error, run.result = .error error →
      (∀ target details, error ≠ .unwritable target details) → run.counter = counter) ∧
    ∀ descriptor, run.result = .ok (.written descriptor) →
      descriptor.derived = counter.next ∧
      descriptor.path = Path.join (Path.parent path) (eventFilename descriptor.derived) ∧
      (∃ location, FileTree.ChangedAt tree run.tree descriptor.path location ∧
        (tree.WellFormed → ∃ place, tree.resolve path = .ok place ∧
          location = place.dropLast ++ [eventFilename descriptor.derived])) ∧
      (settings.overwrite = false → tree.hasPath descriptor.path = false) ∧
      ∃ source conversion texts, tree.readText path = .ok source ∧
        Event.convert (resourcesIn settings tree (Path.parent path)) (Text.lines source) =
          .ok conversion ∧
        descriptor.linkage = conversion.linkage ∧
        List.Forall₂ (fun line text => WrittenAs descriptor.derived line.content text)
          conversion.lines texts ∧
        run.tree.readText descriptor.path = .ok (String.join
          (texts.map (· ++ if "\r\n".toList <:+: source.toList then "\r\n" else "\n"))) := by
  intro run
  have ends : Ends settings tree counter path run.result run.tree run.counter :=
    convertFile_ends settings tree counter path
  have untaken (unused : takesNumber run.result = false) : run.counter = counter := by
    rw [ends.counter_eq, unused, if_neg Bool.false_ne_true]
  refine ⟨ends.tree_eq, ?_, ?_, ?_⟩
  · intro short
    exact untaken (by rw [short]; rfl)
  · intro error failed other
    refine untaken ?_
    rw [failed]
    cases error with
    | unwritable target details => exact absurd rfl (other target details)
    | _ => rfl
  · intro descriptor finished
    rw [finished] at ends
    obtain ⟨source, conversion, converts, rfl, free, written⟩ := ends.exists_of_written
    have read : tree.readText path = .ok source := readText_of_load converts.loaded
    obtain ⟨location, target, changed⟩ := FileTree.changedAt_of_write written
    refine ⟨rfl, rfl, ⟨location, changed, fun sound => place_of_converted sound read target⟩, ?_,
      source, conversion, _, read, converts.converted, rfl,
      forall₂_writtenAs_render conversion counter.next, ?_⟩
    · intro keep
      rw [keep, Bool.not_false, Bool.and_true] at free
      exact free
    · rw [← convertedText_eq_join]
      exact FileTree.readText_of_bytes (FileTree.readBytes_of_write written)

end SceneGallery.Gallery
