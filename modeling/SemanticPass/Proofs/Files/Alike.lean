import SemanticPass.Proofs.Files.Programs

/-!
# Trees that differ in what files hold

Two trees are alike if they have the same directories and files in the same places. A program that
reads no file answers alike trees alike, and treats them alike: what it leaves at a location is the
same in both, or it left the location alone in both.
-/

namespace SemanticPass.FileTree

/-- Two trees with the same directories, and with files in the same places. -/
structure Alike (tree other : FileTree) : Prop where
  /-- The working directory is the same. -/
  home_eq : other.home = tree.home
  /-- A location holds the same in both trees, or a file in each. -/
  held?_cases : ∀ location, other.held? location = tree.held? location ∨
    ∃ bytes bytes', tree.held? location = some (.file bytes) ∧
      other.held? location = some (.file bytes')

variable {tree other middle middle' after after' : FileTree}

namespace Alike

theorem refl (tree : FileTree) : tree.Alike tree := ⟨rfl, fun _ => .inl rfl⟩

/-! ## Paths -/

theorem walk_eq (h : tree.Alike other) (location : Location) (names : List String) :
    other.walk location names = tree.walk location names := by
  induction names generalizing location with
  | nil => rfl
  | cons name names ih =>
      rw [walk, walk]
      rcases h.held?_cases location with heq | ⟨bytes, bytes', hb, hb'⟩
      · rw [heq]
        simp only [ih]
      · rw [hb, hb']

/-- A path leads to the same location in alike trees. -/
theorem follow_eq (h : tree.Alike other) (path : String) (names : List String) :
    other.follow path names = tree.follow path names := by
  unfold follow
  rw [h.home_eq, h.walk_eq]

theorem isDirectory_eq (h : tree.Alike other) (path : String) :
    other.isDirectory path = tree.isDirectory path := by
  simp only [isDirectory, at?, bind, Except.bind, h.follow_eq]
  cases tree.follow path (Path.names path ++ if Path.hasTrailingSlash path then ["."] else []) with
  | error error => rfl
  | ok location =>
      dsimp only
      rcases h.held?_cases location with heq | ⟨bytes, bytes', hb, hb'⟩
      · rw [heq]
      · rw [hb, hb']

end Alike

/-! ## Two runs of a program -/

/-- Two trees and what two runs made of them. -/
structure Parallel (tree other after after' : FileTree) : Prop where
  /-- The trees are alike afterwards. -/
  alike : after.Alike after'
  /-- A location holds the same afterwards, or both runs left it alone. -/
  held?_cases : ∀ location, after'.held? location = after.held? location ∨
    after.held? location = tree.held? location ∧ after'.held? location = other.held? location

namespace Parallel

theorem refl (h : tree.Alike other) : Parallel tree other tree other :=
  ⟨h, fun _ => .inr ⟨rfl, rfl⟩⟩

theorem trans (first : Parallel tree other middle middle')
    (second : Parallel middle middle' after after') : Parallel tree other after after' where
  alike := second.alike
  held?_cases location := by
    rcases second.held?_cases location with heq | ⟨hsame, hsame'⟩
    · exact .inl heq
    · rw [hsame, hsame']
      exact first.held?_cases location

/-- The same entry is put into alike trees. -/
theorem put (h : tree.Alike other) {location : Location} (hne : location ≠ []) (entry : Entry) :
    Parallel tree other (tree.put location entry) (other.put location entry) where
  alike := by
    refine ⟨by rw [home_put, home_put, h.home_eq], fun place => ?_⟩
    rw [held?_put hne, held?_put hne]
    by_cases hp : place = location
    · rw [if_pos hp, if_pos hp]
      exact .inl rfl
    · rw [if_neg hp, if_neg hp]
      exact h.held?_cases place
  held?_cases place := by
    rw [held?_put hne, held?_put hne]
    by_cases hp : place = location
    · rw [if_pos hp, if_pos hp]
      exact .inl rfl
    · rw [if_neg hp, if_neg hp]
      exact .inr ⟨rfl, rfl⟩

end Parallel

section

variable {α β : Type}

/-- A program that does not see what files hold: it answers alike trees alike, and makes the same of
them. -/
def Blind (program : StateM FileTree α) : Prop :=
  ∀ tree other, tree.Alike other → (program other).1 = (program tree).1 ∧
    Parallel tree other (program tree).2 (program other).2

theorem blind_pure (answer : α) : Blind (pure answer : StateM FileTree α) :=
  fun _ _ h => ⟨rfl, .refl h⟩

theorem blind_bind {first : StateM FileTree α} {next : α → StateM FileTree β} (hfirst : Blind first)
    (hnext : ∀ answer, Blind (next answer)) : Blind (first >>= next) := by
  intro tree other h
  obtain ⟨hanswer, hmiddle⟩ := hfirst tree other h
  obtain ⟨hlast, hafter⟩ := hnext (first tree).1 _ _ hmiddle.alike
  have hother : (first >>= next) other = next (first tree).1 (first other).2 := by
    rw [← hanswer]
    rfl
  rw [hother]
  exact ⟨hlast, hmiddle.trans hafter⟩

end

/-! ## Writing -/

/-- Making a directory does not see what files hold. -/
theorem blind_makeDirectory (path : String) : Blind (FileAccess.makeDirectory path) := by
  intro tree other h
  show (other.settle (other.makeDirectory path)).1 = (tree.settle (tree.makeDirectory path)).1 ∧
    Parallel tree other (tree.settle (tree.makeDirectory path)).2
      (other.settle (other.makeDirectory path)).2
  simp only [makeDirectory, bind, Except.bind, h.follow_eq]
  cases tree.follow path (Path.names path) with
  | error error => exact ⟨rfl, .refl h⟩
  | ok location =>
      dsimp only
      rcases h.held?_cases location with heq | ⟨bytes, bytes', hb, hb'⟩
      · rw [heq]
        cases hheld : tree.held? location with
        | some held => exact ⟨rfl, .refl h⟩
        | none =>
            have hne : tree.held? location ≠ some .directory := by simp [hheld]
            exact ⟨rfl, .put h (ne_root_of_held?_ne hne) _⟩
      · rw [hb, hb']
        exact ⟨rfl, .refl h⟩

/-- Writing a text does not see what files hold. -/
theorem blind_writeText (path text : String) : Blind (FileAccess.writeText path text) := by
  intro tree other h
  show (other.settle (other.writeText path text)).1 = (tree.settle (tree.writeText path text)).1 ∧
    Parallel tree other (tree.settle (tree.writeText path text)).2
      (other.settle (other.writeText path text)).2
  simp only [writeText, bind, Except.bind, h.follow_eq]
  cases tree.follow path (Path.names path) with
  | error error => exact ⟨rfl, .refl h⟩
  | ok location =>
      have hput (hne : tree.held? location ≠ some .directory) :=
        Parallel.put h (ne_root_of_held?_ne hne) (.file text.toUTF8)
      dsimp only
      rcases h.held?_cases location with heq | ⟨bytes, bytes', hb, hb'⟩
      · rw [heq]
        cases hheld : tree.held? location with
        | none => exact ⟨rfl, hput (by simp [hheld])⟩
        | some held => cases held with
          | directory => exact ⟨rfl, .refl h⟩
          | file bytes => exact ⟨rfl, hput (by simp [hheld])⟩
      · rw [hb, hb']
        exact ⟨rfl, hput (by simp [hb])⟩

/-- Making a directory and the missing ones on the way to it does not see what files hold. -/
theorem blind_makeAncestors (paths : List String) : Blind (FileAccess.makeAncestors paths) := by
  have hunless (path : String) (error : FileError) :
      Blind (FileAccess.unlessDirectory path error) := by
    have hdirectory : Blind (FileAccess.isDirectory path) :=
      fun _ _ h => ⟨h.isDirectory_eq path, .refl h⟩
    refine blind_bind hdirectory fun found => ?_
    split <;> exact blind_pure _
  induction paths with
  | nil => exact blind_pure _
  | cons path parents ih =>
      unfold FileAccess.makeAncestors
      split
      · exact blind_pure _
      · refine blind_bind (blind_makeDirectory path) fun answer => ?_
        split
        · exact blind_pure _
        · refine blind_bind ih fun answer => ?_
          split
          · exact blind_pure _
          · refine blind_bind (blind_makeDirectory path) fun answer => ?_
            split
            · exact blind_pure _
            · exact hunless path _
        · exact hunless path _

end SemanticPass.FileTree
