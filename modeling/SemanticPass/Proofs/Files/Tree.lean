import Mathlib.Data.List.Induction
import SemanticPass.Files.Tree

/-!
# Paths and entries of a file tree

Operations on a file tree put entries in and take none away, so a path that led through directories
still does. A path of a file in a directory leads to the name of the file below the place of the
directory.
-/

namespace SemanticPass

namespace Path

/-- A name that a file can have below a directory. -/
structure IsFileName (name : String) : Prop where
  /-- The name has characters. -/
  ne_empty : name ≠ ""
  /-- It has no slash. -/
  slash_not_mem : '/' ∉ name.toList
  /-- It is not the name of the directory itself. -/
  ne_dot : name ≠ "."
  /-- It is not the name of the directory above. -/
  ne_dots : name ≠ ".."

theorem names_of_isFileName {name : String} (h : IsFileName name) : names name = [name] := by
  rw [names, List.splitOn_eq_singleton h.slash_not_mem]
  simp [h.ne_empty]

/-- The names of two paths with a slash between them. -/
theorem names_append_slash (path rest : String) :
    names (path ++ "/" ++ rest) = names path ++ names rest := by
  have hchars : (path ++ "/" ++ rest).toList = path.toList ++ '/' :: rest.toList := by simp
  rw [names, hchars, List.splitOn_append_cons_self, List.map_append, List.filter_append]
  rfl

theorem exists_of_hasTrailingSlash {path : String} (h : hasTrailingSlash path = true) :
    ∃ start, path = start ++ "/" := by
  obtain ⟨chars, hchars⟩ := List.getLast?_eq_some_iff.mp (beq_iff_eq.mp h)
  refine ⟨String.ofList chars, String.toList_inj.mp ?_⟩
  simpa using hchars

/-- The path of a file in a directory puts one slash between them, or none at all if the directory
has no name or a slash at its end. -/
theorem inDirectory_cases (directory name : String) :
    directory = "" ∧ inDirectory directory name = name ∨
      ∃ start, (directory = start ∨ directory = start ++ "/") ∧
        directory ≠ "" ∧ inDirectory directory name = start ++ "/" ++ name := by
  unfold inDirectory
  by_cases he : directory = ""
  · exact .inl ⟨he, by simp [he]⟩
  · by_cases ht : hasTrailingSlash directory = true
    · obtain ⟨start, rfl⟩ := exists_of_hasTrailingSlash ht
      exact .inr ⟨start, .inr rfl, he, by simp [ht]⟩
    · exact .inr ⟨directory, .inl rfl, he, by simp [he, ht]⟩

theorem names_inDirectory (directory : String) {name : String} (h : IsFileName name) :
    names (inDirectory directory name) = names directory ++ [name] := by
  have hempty : names "" = [] := by decide
  rcases inDirectory_cases directory name with ⟨rfl, heq⟩ | ⟨start, hstart, -, heq⟩
  · rw [heq, names_of_isFileName h, hempty, List.nil_append]
  · rw [heq, names_append_slash, names_of_isFileName h]
    rcases hstart with rfl | rfl
    · rfl
    · have hslash := names_append_slash start ""
      rw [String.append_empty, hempty, List.append_nil] at hslash
      rw [hslash]

theorem isAbsolute_inDirectory (directory : String) {name : String} (h : IsFileName name) :
    isAbsolute (inDirectory directory name) = isAbsolute directory := by
  have hname : isAbsolute name = false := by
    rw [isAbsolute, beq_eq_false_iff_ne]
    exact fun hhead => h.slash_not_mem (List.mem_of_mem_head? hhead)
  rcases inDirectory_cases directory name with ⟨rfl, heq⟩ | ⟨start, hstart, hne, heq⟩
  · rw [heq, hname]
    rfl
  · rw [heq]
    rcases hstart with rfl | rfl
    · have hchars : directory.toList ≠ [] := fun hnil => hne (String.toList_inj.mp hnil)
      simp [isAbsolute, List.head?_append, List.head?_eq_some_head hchars]
    · simp [isAbsolute, List.head?_append]

theorem hasTrailingSlash_inDirectory (directory : String) {name : String} (h : IsFileName name) :
    hasTrailingSlash (inDirectory directory name) = false := by
  have hchars : name.toList ≠ [] := fun hnil => h.ne_empty (String.toList_inj.mp hnil)
  have hlast : name.toList.getLast? ≠ some '/' :=
    fun hlast => h.slash_not_mem (List.mem_of_getLast? hlast)
  rw [hasTrailingSlash, beq_eq_false_iff_ne]
  rcases inDirectory_cases directory name with ⟨rfl, heq⟩ | ⟨start, -, -, heq⟩
  · rwa [heq]
  · rw [heq, String.toList_append, List.getLast?_append, List.getLast?_eq_some_getLast hchars]
    rwa [List.getLast?_eq_some_getLast hchars] at hlast

end Path

namespace FileTree

/-! ## Entries -/

@[simp]
theorem home_put (tree : FileTree) (location : Location) (entry : Entry) :
    (tree.put location entry).home = tree.home := by
  unfold put
  split <;> rfl

theorem lookup_replace (entries : List (Location × Entry)) (location : Location) (entry : Entry)
    (other : Location) :
    (entries.map fun old => if old.1 = location then (location, entry) else old).lookup other =
      if other = location then (entries.lookup location).map fun _ => entry
      else entries.lookup other := by
  induction entries with
  | nil => simp
  | cons old entries ih =>
      obtain ⟨key, held⟩ := old
      rw [List.map_cons, List.lookup_cons, List.lookup_cons, List.lookup_cons, ih]
      by_cases hkey : key = location
      · subst hkey
        by_cases ho : other = key
        · simp [ho]
        · simp [ho, beq_eq_false_iff_ne.mpr ho]
      · by_cases ho : other = location
        · subst ho
          simp [hkey, beq_eq_false_iff_ne.mpr (Ne.symm hkey)]
        · simp [hkey, ho]

theorem lookup_put (tree : FileTree) (location : Location) (entry : Entry) (other : Location) :
    (tree.put location entry).entries.lookup other =
      if other = location then some entry else tree.entries.lookup other := by
  unfold put
  split
  · rename_i hheld
    obtain ⟨held, hheld⟩ := Option.isSome_iff_exists.mp hheld
    rw [lookup_replace, hheld, Option.map_some]
  · rename_i hnone
    rw [List.lookup_append]
    by_cases ho : other = location
    · subst ho
      simp [Option.not_isSome_iff_eq_none.mp hnone]
    · simp [List.lookup_cons, ho, beq_eq_false_iff_ne.mpr ho]

/-- A tree holds what was put in, and elsewhere what it held before. -/
theorem held?_put {location : Location} (h : location ≠ []) (tree : FileTree) (entry : Entry)
    (other : Location) :
    (tree.put location entry).held? other =
      if other = location then some entry else tree.held? other := by
  unfold held?
  by_cases hroot : other = []
  · rw [if_pos hroot, if_pos hroot, if_neg (hroot ▸ Ne.symm h)]
  · rw [if_neg hroot, if_neg hroot, lookup_put]

theorem ne_root_of_held?_ne {tree : FileTree} {location : Location}
    (h : tree.held? location ≠ some .directory) : location ≠ [] := by
  rintro rfl
  exact h rfl

/-! ## Paths through directories -/

/-- Where a path starts. -/
def origin (tree : FileTree) (path : String) : Location :=
  if Path.isAbsolute path then [] else tree.home

theorem follow_eq_ok_iff {tree : FileTree} {path : String} {names : List String}
    {location : Location} :
    tree.follow path names = .ok location ↔
      Path.hasNull path = false ∧ path.utf8ByteSize ≤ Path.maxLength ∧ path ≠ "" ∧
        tree.walk (tree.origin path) names = .ok location := by
  unfold follow origin
  by_cases hnull : Path.hasNull path = true
  · simp [hnull]
  · by_cases hlength : path.utf8ByteSize > Path.maxLength
    · simp [hnull, hlength, Nat.not_le_of_gt hlength]
    · by_cases hempty : path = ""
      · rw [if_neg hnull, if_neg hlength, if_pos hempty]
        simp [hempty]
      · simp [hnull, hlength, hempty, Nat.le_of_not_gt hlength]

/-- A path with one more name passes through the directory before that name. -/
theorem walk_concat_eq_ok_iff {tree : FileTree} {location : Location} {names : List String}
    {name : String} {place : Location} :
    tree.walk location (names ++ [name]) = .ok place ↔
      ∃ directory, tree.walk location names = .ok directory ∧
        tree.held? directory = some .directory ∧ name.utf8ByteSize ≤ Path.maxNameLength ∧
        stepFrom directory name = place := by
  induction names generalizing location with
  | nil =>
      rw [List.nil_append]
      simp only [walk, Except.ok.injEq, exists_eq_left']
      cases hentry : tree.held? location with
      | none => simp
      | some entry => cases entry with
        | file bytes => simp
        | directory =>
            by_cases hlong : name.utf8ByteSize > Path.maxNameLength
            · simp [hlong, Nat.not_le_of_gt hlong]
            · simp [hlong, Nat.le_of_not_gt hlong]
  | cons first names ih =>
      rw [List.cons_append, walk, walk]
      cases hentry : tree.held? location with
      | none => simp
      | some entry => cases entry with
        | file bytes => simp
        | directory =>
            by_cases hlong : first.utf8ByteSize > Path.maxNameLength
            · simp [hlong]
            · simpa [hlong] using ih

/-- A tree keeps the directories of another, and its working directory. -/
structure Keeps (before after : FileTree) : Prop where
  /-- The working directory is the same. -/
  home_eq : after.home = before.home
  /-- A directory is still there. -/
  directory : ∀ location, before.held? location = some .directory →
    after.held? location = some .directory

variable {before after : FileTree}

theorem Keeps.origin_eq (h : before.Keeps after) (path : String) :
    after.origin path = before.origin path := by rw [origin, origin, h.home_eq]

theorem walk_mono (h : before.Keeps after) {location place : Location} {names : List String}
    (hw : before.walk location names = .ok place) : after.walk location names = .ok place := by
  induction names using List.reverseRecOn generalizing place with
  | nil => exact hw
  | append_singleton names name ih =>
      obtain ⟨directory, hwalk, hentry, hlength, hstep⟩ := walk_concat_eq_ok_iff.mp hw
      exact walk_concat_eq_ok_iff.mpr
        ⟨directory, ih hwalk, h.directory directory hentry, hlength, hstep⟩

theorem follow_mono (h : before.Keeps after) {path : String} {names : List String}
    {location : Location} (hf : before.follow path names = .ok location) :
    after.follow path names = .ok location := by
  obtain ⟨hnull, hlength, hne, hwalk⟩ := follow_eq_ok_iff.mp hf
  exact follow_eq_ok_iff.mpr ⟨hnull, hlength, hne, h.origin_eq path ▸ walk_mono h hwalk⟩

theorem at?_eq_ok_iff {tree : FileTree} {path : String} {location : Location} {entry : Entry} :
    tree.at? path = .ok (location, entry) ↔
      tree.follow path (Path.names path ++ if Path.hasTrailingSlash path then ["."] else []) =
        .ok location ∧ tree.held? location = some entry := by
  simp only [at?, bind, Except.bind]
  cases hfollow : tree.follow path
      (Path.names path ++ if Path.hasTrailingSlash path then ["."] else []) with
  | error error => simp
  | ok found =>
      dsimp only
      cases hheld : tree.held? found with
      | none =>
          simp only [reduceCtorEq, Except.ok.injEq, false_iff, not_and]
          rintro rfl
          simp [hheld]
      | some held =>
          simp only [Except.ok.injEq, Prod.mk.injEq]
          refine and_congr_right fun heq => ?_
          rw [← heq, hheld, Option.some.injEq]

theorem at?_mono (h : before.Keeps after) {path : String} {location : Location} {entry : Entry}
    (hat : before.at? path = .ok (location, entry)) (hheld : after.held? location = some entry) :
    after.at? path = .ok (location, entry) :=
  at?_eq_ok_iff.mpr ⟨follow_mono h (at?_eq_ok_iff.mp hat).1, hheld⟩

/-- Putting an entry where there is no directory keeps the directories. -/
theorem keeps_put {tree : FileTree} {location : Location}
    (h : tree.held? location ≠ some .directory) (entry : Entry) :
    tree.Keeps (tree.put location entry) where
  home_eq := home_put tree location entry
  directory other hother := by
    rw [held?_put (ne_root_of_held?_ne h), if_neg]
    · exact hother
    · rintro rfl
      exact h hother

theorem Keeps.refl (tree : FileTree) : tree.Keeps tree := ⟨rfl, fun _ => id⟩

theorem Keeps.trans {middle : FileTree} (first : before.Keeps middle)
    (second : middle.Keeps after) : before.Keeps after where
  home_eq := second.home_eq.trans first.home_eq
  directory location hentry := second.directory location (first.directory location hentry)

end FileTree

end SemanticPass
