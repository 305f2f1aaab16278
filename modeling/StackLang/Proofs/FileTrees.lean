import StackLang.Files.Tree

/-!
# How file trees change

A tree is changed by putting an entry at one location. Neither creating folders nor writing a file takes a folder
away, so what a path leads to stays the same. The creation of a folder together with the folders above it adds
folders on the way to it, and changes nothing else, whether it succeeds or fails.
-/

namespace StackLang

namespace PathName

end PathName

namespace FileTree

variable {tree tree' tree'' : FileTree} {location location' : Location} {entry : FileEntry}
  {steps steps' : List PathName} {path : PathName} {text : String}

/-! ## Entries -/

/-- The root is a folder. -/
theorem find?_root (tree : FileTree) : tree.find? [] = some .folder := if_pos rfl

/-- An entry that is put below the root is there. -/
theorem find?_insert_self (h : location ≠ []) :
    (tree.insert location entry).find? location = some entry := by
  simp [find?, insert, h]

/-- An entry that is put at a location changes no other location. -/
theorem find?_insert_of_ne (h : location' ≠ location) :
    (tree.insert location entry).find? location' = tree.find? location' := by
  have hlookup (entries : List (Location × FileEntry)) :
      (entries.filter (·.1 ≠ location)).lookup location' = entries.lookup location' := by
    induction entries with
    | nil => rfl
    | cons first entries ih => grind
  have hne : (location' == location) = false := by simpa using h
  simp only [find?, insert, List.lookup_cons, hne, hlookup]

/-- Whether all folders of a tree are folders of another one. -/
def KeepsFolders (tree tree' : FileTree) : Prop :=
  ∀ location, tree.find? location = some .folder → tree'.find? location = some .folder

/-- An entry that takes no folder's place keeps all folders. -/
theorem keepsFolders_insert (h : tree.find? location ≠ some .folder) :
    KeepsFolders tree (tree.insert location entry) := by
  intro location' hfolder
  have hne : location' ≠ location := by
    rintro rfl
    exact h hfolder
  rw [find?_insert_of_ne hne, hfolder]

/-- Only the root and what a tree holds has an entry, so a location without one is below the root. -/
theorem ne_nil_of_not_folder (h : tree.find? location ≠ some .folder) : location ≠ [] := by
  rintro rfl
  exact h tree.find?_root

/-! ## Paths -/

/-- A step that succeeds starts in a folder, and the steps behind it lead on from where it leads to. -/
theorem walk_cons_eq_ok_iff {step : PathName} :
    tree.walk location (step :: steps) = .ok location' ↔
      tree.find? location = some .folder ∧ tree.walk (location.after step) steps = .ok location' := by
  rw [walk]
  cases tree.find? location with
  | none => simp
  | some entry => cases entry <;> simp

/-- Where folders are kept, steps lead to the same location. -/
theorem KeepsFolders.walk (h : KeepsFolders tree tree') (hwalk : tree.walk location steps = .ok location') :
    tree'.walk location steps = .ok location' := by
  induction steps generalizing location with
  | nil => exact hwalk
  | cons step steps ih =>
    obtain ⟨hfolder, hrest⟩ := walk_cons_eq_ok_iff.mp hwalk
    exact walk_cons_eq_ok_iff.mpr ⟨h location hfolder, ih hrest⟩

/-- Where folders are kept, a path name leads to the same location. -/
theorem KeepsFolders.locate (h : KeepsFolders tree tree') (hlocate : tree.locate path = .ok location) :
    tree'.locate path = .ok location := by
  unfold FileTree.locate at hlocate ⊢
  split at hlocate
  · cases hlocate
  · rw [if_neg ‹_›]
    exact h.walk hlocate

/-! ## Reading and writing -/

/-- A text is read from a file that a path leads to. -/
theorem readText_eq_ok_iff :
    tree.readText path = .ok text ↔
      ∃ location, tree.locate path = .ok location ∧
        ∃ content, tree.find? location = some (.file content) ∧ String.fromUTF8? content = some text := by
  unfold readText
  cases hlocate : tree.locate path with
  | error fault => simp [bind, Except.bind]
  | ok location =>
    simp only [bind, Except.bind, Except.ok.injEq, exists_eq_left']
    cases hentry : tree.find? location with
    | none => simp
    | some entry =>
      cases entry with
      | folder => simp
      | file content => cases htext : String.fromUTF8? content <;> simp [htext]

/-- A text is written at the location that a path leads to, where there is no folder. -/
theorem writeText_eq_ok_iff :
    tree.writeText path text = .ok tree' ↔
      ∃ location, tree.locate path = .ok location ∧ tree.find? location ≠ some .folder ∧
        tree' = tree.insert location (.file text.toUTF8) := by
  unfold writeText
  cases hlocate : tree.locate path with
  | error fault => simp [bind, Except.bind]
  | ok location =>
    simp only [bind, Except.bind, Except.ok.injEq, exists_eq_left']
    cases hentry : tree.find? location with
    | none => simp [eq_comm]
    | some entry => cases entry <;> simp [eq_comm]

/-- A text that has been written is read again. -/
theorem readText_of_writeText (h : tree.writeText path text = .ok tree') : tree'.readText path = .ok text := by
  obtain ⟨location, hlocate, hentry, rfl⟩ := writeText_eq_ok_iff.mp h
  refine readText_eq_ok_iff.mpr ⟨location, (keepsFolders_insert hentry).locate hlocate, text.toUTF8, ?_, ?_⟩
  · exact find?_insert_self (ne_nil_of_not_folder hentry)
  · exact dif_pos text.isValidUTF8

/-! ## Creating folders -/

/-- How a tree is changed by creating folders on the way that some steps lead: folders are added where the first ones
of the steps lead to, and nothing else is changed. -/
def Grows (steps : List PathName) (tree tree' : FileTree) : Prop :=
  ∀ location, tree'.find? location = tree.find? location ∨
    tree.find? location = none ∧ tree'.find? location = some .folder ∧
      ∃ front, front <+: steps ∧ tree'.walk [] front = .ok location

/-- A tree that grows keeps its folders. -/
theorem Grows.keepsFolders (h : Grows steps tree tree') : KeepsFolders tree tree' := by
  intro location hfolder
  rcases h location with hsame | ⟨hnone, -⟩
  · rw [hsame, hfolder]
  · rw [hfolder] at hnone
    cases hnone

/-- A tree that stays as it is grows. -/
theorem Grows.refl (steps : List PathName) (tree : FileTree) : Grows steps tree tree := fun _ => .inl rfl

/-- The way can be longer. -/
theorem Grows.mono (h : Grows steps tree tree') (hsteps : steps <+: steps') : Grows steps' tree tree' :=
  fun location => (h location).imp_right fun ⟨hnone, hfolder, front, hfront, hwalk⟩ =>
    ⟨hnone, hfolder, front, hfront.trans hsteps, hwalk⟩

/-- A tree can grow twice on the same way. -/
theorem Grows.trans (h : Grows steps tree tree') (h' : Grows steps tree' tree'') : Grows steps tree tree'' := by
  intro location
  rcases h location with hsame | ⟨hnone, hfolder, front, hfront, hwalk⟩
  · rw [← hsame]
    exact h' location
  · exact .inr ⟨hnone, h'.keepsFolders location hfolder, front, hfront, h'.keepsFolders.walk hwalk⟩

end FileTree

end StackLang
