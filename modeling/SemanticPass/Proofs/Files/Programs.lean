import SemanticPass.Proofs.Files.Tree

/-!
# What programs do to a file tree

A program on a file tree is followed step by step: what relates the trees before and after each of
its steps relates them before and after all of it. Reading leaves the tree as it is. Making a
directory with the missing ones on the way to it, whether or not it succeeds, makes directories
where nothing was, and only where one of the paths on the way leads.
-/

namespace SemanticPass.FileTree

/-! ## Programs on a tree -/

section

variable {R : FileTree → FileTree → Prop} {α β : Type}

/-- A relation holds between the trees before and after a program, whatever the program answers. -/
def Within (R : FileTree → FileTree → Prop) (program : StateM FileTree α) : Prop :=
  ∀ tree, R tree (program tree).2

theorem within_pure (hrefl : ∀ tree, R tree tree) (answer : α) :
    Within R (pure answer : StateM FileTree α) := hrefl

theorem within_bind (htrans : ∀ {before middle after}, R before middle → R middle after →
    R before after) {first : StateM FileTree α} {next : α → StateM FileTree β}
    (hfirst : Within R first) (hnext : ∀ answer, Within R (next answer)) :
    Within R (first >>= next) :=
  fun tree => htrans (hfirst tree) (hnext (first tree).1 (first tree).2)

end

/-- Reading a text changes nothing. -/
theorem within_readText (path : String) : Within Eq (FileAccess.readText path) := by
  have hread : Within Eq (FileAccess.readBytes path) := fun _ => rfl
  unfold FileAccess.readText
  refine within_bind (fun first => first.trans) hread fun answer => ?_
  split
  · exact within_pure (fun _ => rfl) _
  · split <;> exact within_pure (fun _ => rfl) _

/-! ## Directories -/

/-- One tree comes from another by making directories at the ends of some paths. -/
structure MakesDirectories (paths : List String) (before after : FileTree) : Prop where
  /-- The working directory is the same. -/
  home_eq : after.home = before.home
  /-- A location holds what it held, or a directory where nothing was and a path leads. -/
  held?_cases : ∀ location, after.held? location = before.held? location ∨
    before.held? location = none ∧ after.held? location = some .directory ∧
      ∃ path ∈ paths, after.follow path (Path.names path) = .ok location

variable {before middle after tree : FileTree} {paths more : List String}

namespace MakesDirectories

theorem refl (paths : List String) (tree : FileTree) : tree.MakesDirectories paths tree :=
  ⟨rfl, fun _ => .inl rfl⟩

theorem keeps (h : before.MakesDirectories paths after) : before.Keeps after where
  home_eq := h.home_eq
  directory location hheld := by
    rcases h.held?_cases location with heq | ⟨hnone, -⟩
    · rw [heq, hheld]
    · simp [hheld] at hnone

theorem mono (h : before.MakesDirectories paths after) (hsub : paths ⊆ more) :
    before.MakesDirectories more after where
  home_eq := h.home_eq
  held?_cases location := (h.held?_cases location).imp_right fun ⟨hnone, hnew, path, hmem, hf⟩ =>
    ⟨hnone, hnew, path, hsub hmem, hf⟩

theorem trans (first : before.MakesDirectories paths middle)
    (second : middle.MakesDirectories paths after) : before.MakesDirectories paths after where
  home_eq := second.home_eq.trans first.home_eq
  held?_cases location := by
    rcases second.held?_cases location with hsecond | ⟨hnone, hnew⟩
    · rw [hsecond]
      refine (first.held?_cases location).imp_right fun ⟨hnone, hnew, path, hmem, hf⟩ => ?_
      exact ⟨hnone, hnew, path, hmem, follow_mono second.keeps hf⟩
    · rcases first.held?_cases location with hfirst | ⟨-, hdirectory, -⟩
      · exact .inr ⟨hfirst ▸ hnone, hnew⟩
      · simp [hdirectory] at hnone

end MakesDirectories

/-- A directory that is made stands where its path leads. -/
theorem makesDirectories_of_makeDirectory {path : String}
    (h : tree.makeDirectory path = .ok after) : tree.MakesDirectories [path] after := by
  unfold makeDirectory at h
  cases hfollow : tree.follow path (Path.names path) with
  | error error => simp [hfollow, bind, Except.bind] at h
  | ok location =>
      cases hheld : tree.held? location with
      | some held => simp [hfollow, hheld, bind, Except.bind] at h
      | none =>
          have hput : tree.put location .directory = after := by
            simpa [hfollow, hheld, bind, Except.bind] using h
          have hnot : tree.held? location ≠ some .directory := by simp [hheld]
          rw [← hput]
          refine ⟨home_put .., fun other => ?_⟩
          rw [held?_put (ne_root_of_held?_ne hnot)]
          by_cases ho : other = location
          · subst ho
            exact .inr ⟨hheld, if_pos rfl, path, List.mem_singleton_self path,
              follow_mono (keeps_put hnot _) hfollow⟩
          · exact .inl (if_neg ho)

/-- Making one directory, whether or not it succeeds. -/
theorem within_makeDirectory (path : String) :
    Within (MakesDirectories [path]) (FileAccess.makeDirectory path) := by
  intro tree
  show tree.MakesDirectories [path] (tree.settle (tree.makeDirectory path)).2
  cases hmake : tree.makeDirectory path with
  | error error => exact .refl _ tree
  | ok after => exact makesDirectories_of_makeDirectory hmake

/-- A directory that is there all the same is looked for and not made. -/
theorem unlessDirectory_snd (path : String) (error : FileError) (tree : FileTree) :
    ((FileAccess.unlessDirectory path error : StateM FileTree _) tree).2 = tree := by
  cases hdirectory : tree.isDirectory path <;>
    simp [FileAccess.unlessDirectory, FileAccess.isDirectory, bind, StateT.bind, hdirectory] <;> rfl

/-- Making a directory and the missing ones on the way to it makes directories where those paths
lead, and changes nothing else. -/
theorem within_makeAncestors (paths : List String) :
    Within (MakesDirectories paths) (FileAccess.makeAncestors paths) := by
  induction paths with
  | nil => exact within_pure (.refl []) _
  | cons path parents ih =>
      have hmake : Within (MakesDirectories (path :: parents)) (FileAccess.makeDirectory path) :=
        fun tree => (within_makeDirectory path tree).mono (by simp)
      have hparents : Within (MakesDirectories (path :: parents))
          (FileAccess.makeAncestors parents) :=
        fun tree => (ih tree).mono (List.subset_cons_self path parents)
      have hunless (error : FileError) : Within (MakesDirectories (path :: parents))
          (FileAccess.unlessDirectory path error) := fun tree => by
        rw [unlessDirectory_snd]
        exact .refl _ tree
      -- Whatever an attempt answers, what is done about it makes directories on the way as well.
      unfold FileAccess.makeAncestors
      split
      · exact within_pure (.refl _) _
      · refine within_bind (fun first => first.trans) hmake fun answer => ?_
        split
        · exact within_pure (.refl _) _
        · refine within_bind (fun first => first.trans) hparents fun answer => ?_
          split
          · exact within_pure (.refl _) _
          · refine within_bind (fun first => first.trans) hmake fun answer => ?_
            split
            · exact within_pure (.refl _) _
            · exact hunless _
        · exact hunless _

end SemanticPass.FileTree
