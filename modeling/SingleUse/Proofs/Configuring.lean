import SingleUse.Command.Configure
import SingleUse.Proofs.Answering
import SingleUse.Proofs.Rewriting

/-!
# Changing settings by a command

The command that changes a setting does so in the store.  It ends as the store answers, and a
change in the store that is refused leaves the workspace as it is.  Otherwise the directory of the
settings file is made, and what is written into the file is what the store takes for the layer.
There the next run finds it, as far as it may look the file up and read it.
-/

namespace SingleUse

/-! ### The layer that is written -/

/-- What a change of a setting does to a settings file. -/
inductive Deed where
  /-- The change is refused. -/
  | nothing
  /-- The file is to be written, but it is not opened. -/
  | attempt
  | writing (layer : Layer)

namespace Deed

/-- The layers after one of them has undergone a deed. -/
def onLayers (kind : LayerKind) (layers : Layers) : Deed → Layers
  | nothing | attempt => layers
  | writing layer => layers.set kind layer

/-- The workspace after a file has undergone a deed. -/
def onWorkspace (w : Workspace) (file : SourcePath) : Deed → Workspace
  | nothing => w
  | attempt => (w.prepare file).1
  | writing layer => (w.prepare file).1.write file (.settings layer)

end Deed

theorem Layers.get_set (layers : Layers) (kind : LayerKind) (layer : Layer) :
  (layers.set kind layer).get kind = some layer
  := by
  cases kind
  · rfl
  · rfl

namespace Store

/-- What a store does to the file of a layer when all settings are written into it. -/
def saving (store : Store) (kind : LayerKind) : Deed :=
  match (store.written kind).1 with
  | none => .attempt
  | some layer => .writing layer

/-- What a store does to the file of a layer when a setting is changed. -/
def deed (store : Store) (key raw : String) (kind : LayerKind) : Deed :=
  match store.change key raw with
  | (changed, .ok none) => changed.saving kind
  | _ => .nothing

/-- A change touches only the settings after it. -/
theorem exists_change (store : Store) (key raw : String) :
  ∃ settings answer, store.change key raw = ({ store with changed := settings }, answer)
  := by
  rw [change]
  split
  · exact ⟨_, _, rfl⟩
  · split
    · exact ⟨_, _, rfl⟩
    · split
      · exact ⟨_, _, rfl⟩
      · exact ⟨_, _, rfl⟩

theorem layers_save (store : Store) (kind : LayerKind) :
  (store.save kind).1.layers = (store.saving kind).onLayers kind store.layers
  := by
  rw [save, saving]
  rcases store.written kind with ⟨_ | layer, saved⟩
  · rfl
  · rfl

/-- The layers after a change of a setting. -/
theorem layers_set (store : Store) (key raw : String) (kind : LayerKind) :
  (store.set key raw kind).1.layers = (store.deed key raw kind).onLayers kind store.layers
  := by
  obtain ⟨settings, answer, hchange⟩ := exists_change store key raw
  rw [set, deed, hchange]
  rcases answer with e | _ | message
  · rfl
  · exact layers_save _ kind
  · rfl

/-- A file that is not opened is not written. -/
theorem fault?_of_deed {store : Store} {key raw : String} {kind : LayerKind} {layer : Layer}
    (h : store.deed key raw kind = .writing layer) (e : Error) :
  store.fault? kind ≠ some (.unopened e)
  := by
  intro hfault
  obtain ⟨settings, answer, hchange⟩ := exists_change store key raw
  rw [deed, hchange] at h
  rcases answer with e | _ | message
  · cases h
  · simp only [saving, written, hfault] at h
    cases hload : ({ store with changed := settings } : Store).load with
    | error e => simp [hload] at h
    | ok loaded => simp [hload] at h
  · cases h

end Store

/-! ### Making directories -/

namespace Workspace

variable {w w' : Workspace} {here place : List String} {path : SourcePath}

/-- Whether all directories of a workspace are there in another one. -/
def Within (w w' : Workspace) : Prop := ∀ place, w.isDirAt place → w'.isDirAt place

/-- Paths lead where they led when directories are added. -/
theorem Within.follow (h : w.Within w') {parts : List String}
    (hfollow : w.follow here parts = some place) :
  w'.follow here parts = some place
  := by
  induction parts generalizing here with
  | nil => exact hfollow
  | cons part rest ih =>
    rw [Workspace.follow] at hfollow ⊢
    cases hdir : w.isDirAt here with
    | false => simp [hdir] at hfollow
    | true =>
      simp only [hdir, h here hdir, Bool.not_true, Bool.false_eq_true, if_false] at hfollow ⊢
      exact ih hfollow

/-- At the places where there were files there still are when one is written. -/
theorem exists_mem_placeAt (content : Content) {files : List (List String × Content)}
    {file : List String × Content} (hfile : file ∈ files) :
  ∃ file' ∈ placeAt place content files, file'.1 = file.1
  := by
  induction files with
  | nil => cases hfile
  | cons first rest ih =>
    rw [placeAt]
    split
    · rename_i heq
      rcases List.mem_cons.mp hfile with rfl | hrest
      · exact ⟨_, List.mem_cons_self, heq.symm⟩
      · exact ⟨file, List.mem_cons_of_mem _ hrest, rfl⟩
    · rcases List.mem_cons.mp hfile with rfl | hrest
      · exact ⟨file, List.mem_cons_self, rfl⟩
      · obtain ⟨file', hmem, heq⟩ := ih hrest
        exact ⟨file', List.mem_cons_of_mem _ hmem, heq⟩

/-- No directory goes away when a file is written. -/
theorem within_write (w : Workspace) (path : SourcePath) (content : Content) :
  w.Within (w.write path content)
  := by
  intro here h
  rw [isDirAt, Bool.or_eq_true] at h ⊢
  refine h.imp_right fun hfiles => ?_
  obtain ⟨file, hfile, habove⟩ := List.any_eq_true.mp hfiles
  obtain ⟨file', hmem, heq⟩ := exists_mem_placeAt content hfile
  exact List.any_eq_true.mpr ⟨file', hmem, by rwa [heq]⟩

/-- Above a directory there is one. -/
theorem isDirAt_around (h : w.isDirAt here) :
  w.isDirAt (around here)
  := by
  rw [around]
  split
  · rename_i hup
    simp only [isDirAt, isTop, Bool.or_eq_true]
    exact .inl (.inl (.inl (by simpa using hup)))
  · rename_i hup
    split
    · exact h
    · rename_i htop
      have hne : here ≠ [] := by
        rintro rfl
        exact hup rfl
      simp only [isDirAt, htop, Bool.false_or, Bool.or_eq_true, List.any_eq_true] at h ⊢
      rcases h with ⟨dir, hdir, hbelow⟩ | ⟨file, hfile, hbelow⟩
      · refine .inl (.inr ⟨dir, hdir, ?_⟩)
        rw [List.isPrefixOf_iff_prefix] at hbelow ⊢
        exact (List.dropLast_prefix here).trans hbelow
      · refine .inr ⟨file, hfile, ?_⟩
        simp only [Bool.and_eq_true, List.isPrefixOf_iff_prefix, decide_eq_true_eq] at hbelow ⊢
        refine ⟨(List.dropLast_prefix here).trans hbelow.1, ?_⟩
        rintro heq
        have hlength := hbelow.1.length_le
        rw [heq, List.length_dropLast] at hlength
        have := List.length_pos_iff.mpr hne
        omega

/-- Going down from a directory leads to a directory if nothing is in the way, and what was a
directory is still one. -/
theorem descend_ok {made : Bool} {parts : List String} (hhere : w.isDirAt here)
    (h : w.descend made here parts = (w', .ok ())) :
  w.Within w' ∧ ∃ place, w'.follow here parts = some place ∧ w'.isDirAt place
  := by
  induction parts generalizing w made here with
  | nil =>
    obtain ⟨rfl, -⟩ := Prod.mk.inj h
    exact ⟨fun _ h => h, here, rfl, hhere⟩
  | cons part rest ih =>
    -- The step from here is the one that a path takes.
    have hstep : ∀ {w₁ : Workspace} {made : Bool} {next : List String}, w.Within w₁ →
        w₁.isDirAt next → next = (if part = ".." then around here else here ++ [part]) →
        w₁.descend made next rest = (w', .ok ()) →
        w.Within w' ∧ ∃ place, w'.follow here (part :: rest) = some place ∧ w'.isDirAt place := by
      intro w₁ made next hwithin hnext heq hdescend
      obtain ⟨hwithin', place, hfollow, hplace⟩ := ih hnext hdescend
      refine ⟨fun _ h => hwithin' _ (hwithin _ h), place, ?_, hplace⟩
      rw [Workspace.follow, if_neg (by simp [hwithin' _ (hwithin _ hhere)]), ← heq]
      exact hfollow
    rw [descend] at h
    split at h
    · rename_i hup
      exact hstep (fun _ h => h) (isDirAt_around hhere) (if_pos hup).symm h
    · rename_i hup
      split at h
      · cases h
      · dsimp only at h
        split at h
        · cases h
        · split at h
          · rename_i hnext
            exact hstep (fun _ h => h) hnext (if_neg hup).symm h
          · refine hstep ?_ ?_ (if_neg hup).symm h
            · intro place hplace
              simp only [isDirAt, List.any_append, Bool.or_eq_true] at hplace ⊢
              tauto
            · simp [isDirAt]

/-- Where the directory around a path has been made the path leads to a place. -/
theorem makeDir_parent_ok (hclean : path.IsClean) (hne : path.parts ≠ [])
    (h : w.makeDir path.parent = (w', .ok ())) :
  ∃ place, w'.locate? path = some place
  := by
  have hstart : w.isDirAt (startOf path) := by
    rw [isDirAt, startOf]
    rcases hclean.root with hroot | hroot | hroot <;> simp [isTop, isRooted, hroot]
  rw [makeDir] at h
  split at h
  · cases h
  · obtain ⟨-, place, hfollow, hdir⟩ := descend_ok hstart h
    rw [locate?, ← List.dropLast_concat_getLast hne, follow_append]
    change w'.follow (startOf path) path.parts.dropLast = some place at hfollow
    rw [hfollow, Option.bind_some, follow, if_neg (by simp [hdir])]
    exact ⟨_, rfl⟩

/-- A settings file that is written after it was made ready for holds what was written. -/
theorem content?_write_prepare (hclean : path.IsClean) (hne : path.parts ≠ [])
    (hopened : ∀ e, (w.prepare path).2 ≠ some (.unopened e)) (content : Content) :
  ((w.prepare path).1.write path content).content? path = some content
  := by
  rw [prepare] at hopened ⊢
  rcases hmake : w.makeDir path.parent with ⟨w₁, e | _⟩
  · simp [hmake] at hopened
  · obtain ⟨place, hlocate⟩ := makeDir_parent_ok hclean hne hmake
    have hthere := (within_write w₁ path content).follow hlocate
    rw [content?, locate?, hthere, Option.bind_some, contentAt?_write hlocate, if_pos rfl]

end Workspace

/-! ### The run of the command -/

namespace Configure

variable {s : Outside} {project : SourcePath} {kind : LayerKind}

/-- The writing of a layer in a run is the writing in the store. -/
theorem run_save (s : Outside) (project : SourcePath) (store : Store) (kind : LayerKind)
    (world : World) :
  (save s project store kind).run.run world = ((store.save kind).2, {
    world with
    workspace := (store.saving kind).onWorkspace world.workspace (fileOf s project kind) })
  := by
  rw [save, Store.save, Store.saving]
  rcases store.written kind with ⟨_ | layer, _ | _⟩
  · rfl
  · rfl
  · rfl
  · rfl

/-- The lines that are printed when a change has been answered. -/
def linesOf (s : Outside) (project : SourcePath) (symbols : Symbols) (key raw : String)
    (kind : LayerKind) : Except Error (Option String) → List String
  | .error _ => []
  | .ok (some message) => [symbols.checkFail ++ " " ++ message]
  | .ok none => [symbols.checkPass ++ s!" Set {key} = {raw}",
      "  " ++ symbols.arrow ++ " " ++ (fileOf s project kind).text]

/-- The status with which the command ends when a change has been answered. -/
def statusOf (answer : Option String) : Nat := if answer.isSome then 2 else 0

/-- The command that changes a setting does so in the store: it ends with the error of the store, or
with a status that tells whether something is wrong, and what it does to the file of the layer is
what the store does to the layer. -/
theorem run_set (s : Outside) (project : SourcePath) (store : Store) (symbols : Symbols)
    (key raw : String) (kind : LayerKind) (world : World) :
  (set s project store symbols key raw kind).run.run world
      = ((store.set key raw kind).2.map statusOf, {
        world with
        workspace := (store.deed key raw kind).onWorkspace world.workspace (fileOf s project kind)
        output := world.output ++ String.join
          ((linesOf s project symbols key raw kind (store.set key raw kind).2).map fun line =>
            s.encoding.written (line ++ "\n")) })
    ∧ (store.set key raw kind).1.layers = (store.deed key raw kind).onLayers kind store.layers
  := by
  refine ⟨?_, Store.layers_set store key raw kind⟩
  rw [set, Store.set, Store.deed]
  rcases store.change key raw with ⟨changed, e | _ | message⟩
  · rw [Run.bind_of_error (Run.run_monadLift (.error e) world)]
    simp [linesOf, Except.map, Deed.onWorkspace]
  · rw [Run.bind_of_ok (Run.run_monadLift (.ok none) world)]
    have hsave := run_save s project changed kind world
    rcases hsaved : changed.save kind with ⟨after, e | _⟩
    · rw [hsaved] at hsave
      dsimp only
      rw [hsaved, Run.bind_of_error hsave]
      simp [linesOf, Except.map]
    · rw [hsaved] at hsave
      dsimp only
      rw [hsaved, Run.bind_of_ok hsave, Run.bind_of_ok (Run.run_print s _ _),
        Run.bind_of_ok (Run.run_print s _ _), Run.run_pure]
      simp [linesOf, Except.map, statusOf, String.append_assoc]
  · rw [Run.bind_of_ok (Run.run_monadLift (.ok (some message)) world)]
    dsimp only
    rw [Run.bind_of_ok (Run.run_print s _ _), Run.run_pure]
    simp [linesOf, Except.map, statusOf, Deed.onWorkspace]

theorem parts_fileOf (s : Outside) (project : SourcePath) (kind : LayerKind) :
  (fileOf s project kind).parts ≠ []
  := by
  cases kind <;> simp [fileOf, Outside.userFile, Outside.settingsBelow, SourcePath.join]

theorem layers_ofWorkspace (s : Outside) (project : SourcePath) (w : Workspace)
    (kind : LayerKind) :
  (Store.ofWorkspace s project w).layers.get kind = w.layer? (fileOf s project kind)
  := by
  cases kind
  · rfl
  · rfl

/-- If the file was written, the next run finds in it what the store has for the layer, provided
that it may look it up and read it. -/
theorem get_ofWorkspace_of_set {store : Store} {symbols : Symbols} {key raw : String}
    {layer : Layer} {world world' : World} {ending : Except Error Nat}
    (hclean : (fileOf s project kind).IsClean)
    (hstore : store = .ofWorkspace s project world.workspace)
    (hwritten : store.deed key raw kind = .writing layer)
    (hrun : (set s project store symbols key raw kind).run.run world = (ending, world'))
    (hlookup : world'.workspace.refusal? (fileOf s project kind) = none)
    (hread : world'.workspace.readFault? (fileOf s project kind) = none) :
  (Store.ofWorkspace s project world'.workspace).layers.get kind
    = (store.set key raw kind).1.layers.get kind
  := by
  have hopened := Store.fault?_of_deed hwritten
  rw [hstore] at hopened
  obtain ⟨hset, hlayers⟩ := run_set s project store symbols key raw kind world
  rw [hset, hwritten] at hrun
  obtain ⟨-, rfl⟩ := Prod.mk.inj hrun
  have hcontent := Workspace.content?_write_prepare hclean (parts_fileOf s project kind) hopened
    (.settings layer)
  simp only [Deed.onWorkspace] at hlookup hread
  rw [hlayers, hwritten, Deed.onLayers, Layers.get_set, layers_ofWorkspace, Workspace.layer?]
  simp only [Deed.onWorkspace]
  rw [hlookup, hcontent, hread]

end Configure

end SingleUse
