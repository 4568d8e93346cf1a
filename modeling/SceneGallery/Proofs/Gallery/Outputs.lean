import SceneGallery.Proofs.Gallery.Numbering
set_option autoImplicit false

namespace SceneGallery.Gallery

open Storage

/-- The event at a path is converted in a run: from which text, to what, and with which
descriptor. -/
inductive Made (settings : Settings) :
    Stage → List String → String → String → Event.Conversion → Descriptor → Prop
  | now {stage : Stage} {path source : String} {rest : List String}
      {conversion : Event.Conversion} {descriptor : Descriptor}
      (converts : Converts settings stage.tree path source conversion)
      (made : descriptorOf? (stage.result settings path) = some descriptor) :
      Made settings stage (path :: rest) path source conversion descriptor
  | later {stage : Stage} {first path source : String} {rest : List String}
      {conversion : Event.Conversion} {descriptor : Descriptor}
      (made : Made settings (stage.next settings first) rest path source conversion descriptor) :
      Made settings stage (first :: rest) path source conversion descriptor

namespace Stage

variable {settings : Settings} {stage : Stage}

/-- A run writes files under the names of its own numbers. -/
theorem writes_after (settings : Settings) (stage : Stage) (paths : List String) :
    FileTree.Writes (fun location => ∃ id ∈ stage.numbers settings paths,
      location.getLast? = some (eventFilename id)) stage.tree
      (stage.after settings paths).tree := by
  induction paths generalizing stage with
  | nil => exact .done _
  | cons path rest ih =>
      have ends := stage.ends settings path
      rw [numbers_cons]
      refine FileTree.Writes.trans ?_ ((ih (stage.next settings path)).mono
        fun location ⟨id, inside, named⟩ => ⟨id, List.mem_append_right _ inside, named⟩)
      cases made : descriptorOf? (stage.result settings path) with
      | none =>
          rw [ends.unchanged made]
          exact .done _
      | some descriptor =>
          obtain ⟨taken, _, target⟩ := ends.descriptor_eq made
          obtain ⟨source, conversion, _, _, ⟨_, _, same⟩ | ⟨_, written⟩⟩ := ends.converted made
          · rw [same]
            exact .done _
          · refine FileTree.writes_of_write written fun location found => ?_
            rw [target] at found
            rw [if_pos taken]
            exact ⟨_, List.mem_append_left _ List.mem_cons_self,
              FileTree.getLast?_place (isFilePath_convertedPath _ _) found⟩

theorem after_frame {paths : List String} {id : UInt32} (other : id ∉ stage.numbers settings paths)
    {path : String} {front : List String}
    (known : FileTree.IsFilePath path front (eventFilename id)) :
    (stage.after settings paths).tree.hasPath path = stage.tree.hasPath path ∧
      (stage.tree.hasPath path = true →
        (stage.after settings paths).tree.readBytes path = stage.tree.readBytes path) := by
  have writes : FileTree.Writes (fun location => location.getLast? ≠ some (eventFilename id))
      stage.tree (stage.after settings paths).tree := by
    refine (stage.writes_after settings paths).mono ?_
    rintro location ⟨number, inside, named⟩ same
    rw [← eventFilename_inj (Option.some.inj (named.symm.trans same))] at other
    exact other inside
  exact ⟨writes.hasPath_eq_of_name known, writes.readBytes_eq_of_name known⟩

theorem numbers_first (settings : Settings) (stage : Stage) (path : String) (rest : List String) :
    stage.numbers settings (path :: rest) =
      stage.numbers settings [path] ++ (stage.next settings path).numbers settings rest := by
  rw [numbers_cons, numbers_cons settings stage path []]
  exact congrArg (· ++ _) (List.append_nil _).symm

theorem numbers_append (settings : Settings) (stage : Stage) (front back : List String) :
    stage.numbers settings (front ++ back) =
      stage.numbers settings front ++ (stage.after settings front).numbers settings back := by
  induction front generalizing stage with
  | nil => rfl
  | cons path rest ih =>
      rw [List.cons_append, numbers_cons, ih, numbers_cons settings stage path rest,
        List.append_assoc]
      rfl

/-- Every file has its result at the stage that the files before it lead to. -/
theorem results_getElem? (settings : Settings) (stage : Stage) (paths : List String) (i : Nat) :
    (stage.results settings paths)[i]? =
      paths[i]?.map ((stage.after settings (paths.take i)).result settings) := by
  induction paths generalizing stage i with
  | nil => rfl
  | cons path rest ih =>
      cases i with
      | zero => rfl
      | succ i =>
          rw [results, List.getElem?_cons_succ, List.getElem?_cons_succ, ih, List.take_succ_cons]
          rfl

end Stage

namespace Made

variable {settings : Settings} {stage : Stage} {paths : List String} {path source : String}
  {conversion : Event.Conversion} {descriptor : Descriptor}

theorem mem (made : Made settings stage paths path source conversion descriptor) :
    path ∈ paths ∧ descriptor ∈ stage.descriptors settings paths ∧
      descriptor.derived ∈ stage.numbers settings paths ∧
      descriptor.path = convertedPath path descriptor.derived := by
  induction made with
  | @now stage path source rest conversion descriptor converts made =>
      obtain ⟨taken, number, target⟩ := (stage.ends settings path).descriptor_eq made
      rw [Stage.descriptors_cons, made, Stage.numbers_cons, if_pos taken, number, target]
      exact ⟨List.mem_cons_self, List.mem_append_left _ (List.mem_singleton_self _),
        List.mem_append_left _ (List.mem_singleton_self _), rfl⟩
  | later _ ih =>
      obtain ⟨inside, described, number, target⟩ := ih
      rw [Stage.descriptors_cons, Stage.numbers_cons]
      exact ⟨List.mem_cons_of_mem _ inside, List.mem_append_right _ described,
        List.mem_append_right _ number, target⟩

theorem of_getElem? {i : Nat} (found : paths[i]? = some path)
    (converts : Converts settings (stage.after settings (paths.take i)).tree path source conversion)
    (made : descriptorOf? ((stage.after settings (paths.take i)).result settings path) =
      some descriptor) : Made settings stage paths path source conversion descriptor := by
  induction paths generalizing stage i with
  | nil => cases found
  | cons first rest ih =>
      cases i with
      | zero =>
          obtain rfl := Option.some.inj found
          exact .now converts made
      | succ i => exact .later (ih found converts made)

theorem exists_of_mem (inside : descriptor ∈ stage.descriptors settings paths) :
    ∃ path source conversion, Made settings stage paths path source conversion descriptor := by
  induction paths generalizing stage with
  | nil => cases inside
  | cons first rest ih =>
      rw [Stage.descriptors_cons, List.mem_append, Option.mem_toList] at inside
      rcases inside with made | inside
      · obtain ⟨source, conversion, converts, _⟩ := (stage.ends settings first).converted made
        exact ⟨first, source, conversion, .now converts made⟩
      · obtain ⟨path, source, conversion, made⟩ := ih inside
        exact ⟨path, source, conversion, .later made⟩

/-- After a run the file of a converted event has the conversion, if there was no such file before
or it was to be overwritten, and else what it had before. -/
theorem file (made : Made settings stage paths path source conversion descriptor)
    (distinct : (stage.numbers settings paths).Nodup) :
    (stage.after settings paths).tree.readBytes descriptor.path =
      if (stage.tree.hasPath descriptor.path && !settings.overwrite) = true then
        stage.tree.readBytes descriptor.path
      else .ok (convertedText source conversion descriptor.derived).toUTF8 := by
  induction made with
  | @now stage path source rest conversion descriptor converts made =>
      obtain ⟨taken, number, target⟩ := (stage.ends settings path).descriptor_eq made
      rw [Stage.numbers_first, List.nodup_append] at distinct
      have inside : descriptor.derived ∈ stage.numbers settings [path] := by
        rw [Stage.numbers_cons, if_pos taken, number]
        exact List.mem_cons_self
      -- The later files take other numbers, so they leave this one alone.
      have other : descriptor.derived ∉ (stage.next settings path).numbers settings rest :=
        fun later => distinct.2.2 _ inside _ later rfl
      have known := isFilePath_convertedPath path descriptor.derived
      rw [number, ← target, ← number] at known
      have later := (Stage.after_frame other known).2
      obtain ⟨source', conversion', again, _, wrote⟩ := (stage.ends settings path).converted made
      obtain ⟨rfl, rfl⟩ := converts.unique again
      rcases wrote with ⟨there, keep, same⟩ | ⟨free, written⟩
      · rw [if_pos (by rw [there, keep]; rfl)]
        rw [same] at later
        exact later there
      · rw [if_neg (by rw [free]; exact Bool.false_ne_true)]
        have read := FileTree.readBytes_of_write written
        exact (later (FileTree.hasPath_of_readBytes read)).trans read
  | @later stage first path source rest conversion descriptor made ih =>
      rw [Stage.numbers_first, List.nodup_append] at distinct
      obtain ⟨_, distinct, apart⟩ := distinct
      -- The first file takes another number, so what was there before it is still there.
      have other : descriptor.derived ∉ stage.numbers settings [first] := fun inside =>
        apart _ inside _ made.mem.2.2.1 rfl
      have known := isFilePath_convertedPath path descriptor.derived
      rw [← made.mem.2.2.2] at known
      obtain ⟨same, kept⟩ := Stage.after_frame other known
      have last := ih distinct
      rw [show stage.next settings first = stage.after settings [first] from rfl, same] at last
      rw [Stage.after, List.foldl_cons]
      refine last.trans ?_
      split
      · rename_i there
        exact kept (Bool.and_eq_true_iff.mp there).1
      · rfl

/-- A file that is new after a run is that of a converted event. -/
theorem exists_of_new {file : String} {front : List String} {id : UInt32}
    (known : FileTree.IsFilePath file front (eventFilename id))
    (missing : stage.tree.hasPath file = false)
    (there : (stage.after settings paths).tree.hasPath file = true) :
    ∃ path source conversion descriptor,
      Made settings stage paths path source conversion descriptor ∧ descriptor.derived = id ∧
        stage.tree.place? descriptor.path = stage.tree.place? file := by
  induction paths generalizing stage with
  | nil =>
      rw [Stage.after, List.foldl_nil, missing] at there
      cases there
  | cons first rest ih =>
      have ends := stage.ends settings first
      cases new : (stage.next settings first).tree.hasPath file with
      | false =>
          obtain ⟨path, source, conversion, descriptor, made, number, place⟩ := ih new there
          refine ⟨path, source, conversion, descriptor, .later made, number, ?_⟩
          have writes := stage.writes_after settings [first]
          exact (writes.place?_eq _).symm.trans (place.trans (writes.place?_eq _))
      | true =>
          cases made : descriptorOf? (stage.result settings first) with
          | none =>
              rw [ends.unchanged made, missing] at new
              cases new
          | some descriptor =>
              obtain ⟨_, number, target⟩ := ends.descriptor_eq made
              obtain ⟨source, conversion, converts, _, wrote⟩ := ends.converted made
              rcases wrote with ⟨_, _, same⟩ | ⟨_, written⟩
              · rw [same, missing] at new
                cases new
              · obtain ⟨location, place, found⟩ :=
                  FileTree.place_of_new written known missing new
                refine ⟨first, source, conversion, descriptor, .now converts made, ?_,
                  place.trans found.symm⟩
                rw [target] at place
                have named := FileTree.getLast?_place (isFilePath_convertedPath _ _) place
                rw [FileTree.getLast?_place known found] at named
                rw [number]
                exact (eventFilename_inj (Option.some.inj named)).symm

end Made

end SceneGallery.Gallery
