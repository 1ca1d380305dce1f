import SemanticPass.Program
import SemanticPass.Proofs.Files.Programs

/-!
# Writing the listings

Listings are written into one directory, one file after the other, and the first file that cannot be
written ends it. When nothing went wrong, each file of the directory holds its listing; apart from
these files there are only the directories that had to be made.
-/

namespace SemanticPass

namespace FileTree

/-- One tree comes from another by writing files below a place, which is where a directory leads. -/
structure WritesFiles (directory : String) (place : Location) (files : List (String × String))
    (before after : FileTree) : Prop where
  /-- No directory is lost. -/
  keeps : before.Keeps after
  /-- The path of each file in the directory leads to its text. -/
  found : ∀ file ∈ files, after.at? (Path.inDirectory directory file.1) =
    .ok (place ++ [file.1], .file file.2.toUTF8)
  /-- Every other location holds what it held. -/
  others : ∀ location, (∀ file ∈ files, location ≠ place ++ [file.1]) →
    after.held? location = before.held? location

variable {before middle after tree : FileTree} {directory : String} {place : Location}

theorem WritesFiles.nil (directory : String) (place : Location) (tree : FileTree) :
    tree.WritesFiles directory place [] tree :=
  ⟨.refl tree, fun _ hmem => absurd hmem List.not_mem_nil, fun _ _ => rfl⟩

/-- A file of its own name stays while others are written. -/
theorem WritesFiles.cons {file : String × String} {files : List (String × String)}
    (first : before.WritesFiles directory place [file] middle)
    (rest : middle.WritesFiles directory place files after) (hnew : file.1 ∉ files.map Prod.fst) :
    before.WritesFiles directory place (file :: files) after where
  keeps := first.keeps.trans rest.keeps
  found other hmem := by
    rcases List.mem_cons.mp hmem with rfl | hmem
    · have hfirst := first.found other (List.mem_singleton_self other)
      refine at?_mono rest.keeps hfirst ?_
      rw [rest.others, (at?_eq_ok_iff.mp hfirst).2]
      intro later hlater heq
      have hname : other.1 = later.1 := by simpa using heq
      exact hnew (hname ▸ List.mem_map_of_mem hlater)
    · exact rest.found other hmem
  others location hne := by
    rw [rest.others location fun later hlater => hne later (List.mem_cons_of_mem file hlater),
      first.others]
    simpa using hne file (List.mem_cons_self ..)

/-- A file that is written into a directory stands below the place where the directory leads. -/
theorem writesFiles_of_writeText {name text : String} (hname : Path.IsFileName name)
    (h : tree.writeText (Path.inDirectory directory name) text = .ok after) :
    ∃ place, tree.walk (tree.origin directory) (Path.names directory) = .ok place ∧
      tree.WritesFiles directory place [(name, text)] after := by
  simp only [writeText, bind, Except.bind] at h
  cases hfollow : tree.follow (Path.inDirectory directory name)
      (Path.names (Path.inDirectory directory name)) with
  | error error => simp [hfollow] at h
  | ok location =>
      rw [hfollow] at h
      dsimp only at h
      have hnot : tree.held? location ≠ some .directory := by
        intro hdirectory
        simp [hdirectory] at h
      have hput : tree.put location (.file text.toUTF8) = after := by
        cases hheld : tree.held? location with
        | none => simpa [hheld] using h
        | some entry => cases entry with
          | directory => exact absurd hheld hnot
          | file bytes => simpa [hheld] using h
      have hkeeps := keeps_put hnot (.file text.toUTF8)
      have hheld := fun other =>
        held?_put (ne_root_of_held?_ne hnot) tree (.file text.toUTF8) other
      have horigin : tree.origin (Path.inDirectory directory name) = tree.origin directory := by
        rw [origin, origin, Path.isAbsolute_inDirectory directory hname]
      obtain ⟨-, -, -, hwalk⟩ := follow_eq_ok_iff.mp hfollow
      rw [Path.names_inDirectory directory hname, horigin] at hwalk
      obtain ⟨place, hplace, -, -, hstep⟩ := walk_concat_eq_ok_iff.mp hwalk
      rw [stepFrom, if_neg hname.ne_dot, if_neg hname.ne_dots] at hstep
      subst hput hstep
      refine ⟨place, hplace, hkeeps, ?_, ?_⟩
      · simp only [List.mem_singleton, forall_eq]
        refine at?_eq_ok_iff.mpr ⟨?_, by rw [hheld, if_pos rfl]⟩
        rw [Path.hasTrailingSlash_inDirectory directory hname, if_neg Bool.false_ne_true,
          List.append_nil]
        exact follow_mono hkeeps hfollow
      · intro other hne
        rw [hheld, if_neg (by simpa using hne)]

/-- One tree comes from another by writing the listings of a session into a directory. -/
structure Lists (session : Session) (directory : String) (before after : FileTree) : Prop where
  /-- The working directory is the same. -/
  home_eq : after.home = before.home
  /-- The file for symbols can be read, and holds their listing. -/
  symbols_eq : after.readBytes (Path.inDirectory directory "symbolTable") =
    .ok (Listing.symbols session.symbols).toUTF8
  /-- The file for constants can be read, and holds their listing. -/
  constants_eq : after.readBytes (Path.inDirectory directory "constantTable") =
    .ok (Listing.constants session.constants).toUTF8
  /-- The file for tokens can be read, and holds their listing. -/
  tokens_eq : after.readBytes (Path.inDirectory directory "parseTable") =
    .ok (Listing.tokens session.tokens).toUTF8
  /-- The files stand below the place where the directory leads. Every other location holds what it
  held, or a directory where nothing was, on the way to that place. -/
  others : ∃ place, after.walk (after.origin directory) (Path.names directory) = .ok place ∧
    after.held? (place ++ ["symbolTable"]) =
      some (.file (Listing.symbols session.symbols).toUTF8) ∧
    after.held? (place ++ ["constantTable"]) =
      some (.file (Listing.constants session.constants).toUTF8) ∧
    after.held? (place ++ ["parseTable"]) =
      some (.file (Listing.tokens session.tokens).toUTF8) ∧
    ∀ location, location ≠ place ++ ["symbolTable"] → location ≠ place ++ ["constantTable"] →
      location ≠ place ++ ["parseTable"] →
      after.held? location = before.held? location ∨
      before.held? location = none ∧ after.held? location = some .directory ∧
        ∃ path ∈ Path.ancestors directory, after.follow path (Path.names path) = .ok location

/-- The names of the listings are names of files, and differ. -/
theorem fst_files (session : Session) :
    (∀ file ∈ Listing.files session, Path.IsFileName file.1) ∧
      ((Listing.files session).map Prod.fst).Nodup := by
  have hnames : (Listing.files session).map Prod.fst =
      ["symbolTable", "constantTable", "parseTable"] := rfl
  rw [hnames]
  refine ⟨fun file hmem => ?_, by decide⟩
  have hname := List.mem_map_of_mem (f := Prod.fst) hmem
  rw [hnames] at hname
  simp only [List.mem_cons, List.not_mem_nil, or_false] at hname
  rcases hname with hname | hname | hname <;> rw [hname] <;> constructor <;> decide

/-- Listings are written once directories were made and files were written. -/
theorem lists_of_writesFiles {session : Session}
    (first : before.MakesDirectories (Path.ancestors directory) middle)
    (hplace : middle.walk (middle.origin directory) (Path.names directory) = .ok place)
    (second : middle.WritesFiles directory place (Listing.files session) after) :
    before.Lists session directory after := by
  have hfound := second.found
  have hothers := second.others
  simp only [Listing.files, List.forall_mem_cons, List.not_mem_nil, false_imp_iff, implies_true,
    and_true] at hfound hothers
  obtain ⟨hsymbols, hconstants, htokens⟩ := hfound
  refine ⟨second.keeps.home_eq.trans first.home_eq, ?_, ?_, ?_, place, ?_,
    (at?_eq_ok_iff.mp hsymbols).2, (at?_eq_ok_iff.mp hconstants).2, (at?_eq_ok_iff.mp htokens).2, ?_⟩
  · rw [readBytes, hsymbols]
  · rw [readBytes, hconstants]
  · rw [readBytes, htokens]
  · rw [second.keeps.origin_eq]
    exact walk_mono second.keeps hplace
  · intro location hsymbol hconstant htoken
    rw [hothers location ⟨hsymbol, hconstant, htoken⟩]
    refine (first.held?_cases location).imp_right fun ⟨hnone, hnew, path, hmem, hf⟩ => ?_
    exact ⟨hnone, hnew, path, hmem, follow_mono second.keeps hf⟩

end FileTree

namespace Program

open FileTree

variable {tree : FileTree} {directory : String}

theorem writeFiles_cons (directory name text : String) (files : List (String × String))
    (tree : FileTree) :
    (writeFiles directory ((name, text) :: files) : StateM FileTree _) tree =
      match tree.writeText (Path.inDirectory directory name) text with
      | .error error => (([], some (.file (Path.inDirectory directory name) error)), tree)
      | .ok next =>
        let rest := (writeFiles directory files : StateM FileTree _) next
        ((wrote (Path.inDirectory directory name) :: rest.1.1, rest.1.2), rest.2) := by
  rw [writeFiles]
  simp only [bind, StateT.bind, FileAccess.writeText, settle]
  cases tree.writeText (Path.inDirectory directory name) text <;> rfl

/-- Writing files makes records of what was written and no other output. -/
theorem writeFiles_wrote (directory : String) (files : List (String × String)) (tree : FileTree) :
    ∀ item ∈ ((writeFiles directory files : StateM FileTree _) tree).1.1,
      ∃ path, item = wrote path := by
  induction files generalizing tree with
  | nil => intro item hmem; cases hmem
  | cons file files ih =>
      obtain ⟨name, text⟩ := file
      rw [writeFiles_cons]
      cases tree.writeText (Path.inDirectory directory name) text with
      | error error => intro item hmem; cases hmem
      | ok next =>
          intro item hmem
          rcases List.mem_cons.mp hmem with rfl | hmem
          · exact ⟨_, rfl⟩
          · exact ih next item hmem

/-- Files that were all written are there. -/
theorem writesFiles_of_writeFiles {files : List (String × String)}
    (hnames : ∀ file ∈ files, Path.IsFileName file.1) (hnodup : (files.map Prod.fst).Nodup)
    {place : Location} (hplace : tree.walk (tree.origin directory) (Path.names directory) = .ok place)
    (h : ((writeFiles directory files : StateM FileTree _) tree).1.2 = none) :
    tree.WritesFiles directory place files
      ((writeFiles directory files : StateM FileTree _) tree).2 := by
  induction files generalizing tree with
  | nil => exact .nil directory place tree
  | cons file files ih =>
      obtain ⟨name, text⟩ := file
      rw [List.map_cons, List.nodup_cons] at hnodup
      rw [writeFiles_cons] at h ⊢
      cases hwrite : tree.writeText (Path.inDirectory directory name) text with
      | error error => simp [hwrite] at h
      | ok next =>
          rw [hwrite] at h
          obtain ⟨found, hfound, hfirst⟩ :=
            writesFiles_of_writeText (hnames (name, text) (List.mem_cons_self ..)) hwrite
          obtain rfl : found = place := Except.ok.inj (hfound.symm.trans hplace)
          refine hfirst.cons (ih ?_ hnodup.2 ?_ h) hnodup.1
          · exact fun file hmem => hnames file (List.mem_cons_of_mem _ hmem)
          · rw [hfirst.keeps.origin_eq]
            exact walk_mono hfirst.keeps hplace

/-- A directory into which a file was written leads to a place. -/
theorem exists_place_of_writeFiles {file : String × String} {files : List (String × String)}
    (hname : Path.IsFileName file.1)
    (h : ((writeFiles directory (file :: files) : StateM FileTree _) tree).1.2 = none) :
    ∃ place, tree.walk (tree.origin directory) (Path.names directory) = .ok place := by
  obtain ⟨name, text⟩ := file
  rw [writeFiles_cons] at h
  cases hwrite : tree.writeText (Path.inDirectory directory name) text with
  | error error => simp [hwrite] at h
  | ok next =>
      obtain ⟨place, hplace, -⟩ := writesFiles_of_writeText hname hwrite
      exact ⟨place, hplace⟩

theorem writeListings_eq (session : Session) (directory : String) (tree : FileTree) :
    (writeListings session directory : StateM FileTree _) tree =
      match (FileAccess.makeDirectories directory : StateM FileTree _) tree with
      | (.error error, next) => (([], some (.directory directory error)), next)
      | (.ok (), next) => (writeFiles directory (Listing.files session) : StateM FileTree _) next := by
  rw [writeListings]
  simp only [bind, StateT.bind]
  rcases (FileAccess.makeDirectories directory : StateM FileTree _) tree with ⟨_ | _, next⟩ <;> rfl

/-- Writing the listings makes records of what was written and no other output. -/
theorem writeListings_wrote (session : Session) (directory : String) (tree : FileTree) :
    ∀ item ∈ ((writeListings session directory : StateM FileTree _) tree).1.1,
      ∃ path, item = wrote path := by
  rw [writeListings_eq]
  rcases (FileAccess.makeDirectories directory : StateM FileTree _) tree with ⟨error | done, next⟩
  · intro item hmem
    cases hmem
  · exact writeFiles_wrote directory _ next

/-- Listings that were all written are there. -/
theorem lists_of_writeListings {session : Session}
    (h : ((writeListings session directory : StateM FileTree _) tree).1.2 = none) :
    tree.Lists session directory
      ((writeListings session directory : StateM FileTree _) tree).2 := by
  rw [writeListings_eq] at h ⊢
  have hmakes := within_makeAncestors (Path.ancestors directory) tree
  rw [← FileAccess.makeDirectories] at hmakes
  rcases hmake : (FileAccess.makeDirectories directory : StateM FileTree _) tree with
    ⟨error | done, next⟩
  · simp [hmake] at h
  · rw [hmake] at h hmakes
    obtain ⟨hnames, hnodup⟩ := fst_files session
    obtain ⟨place, hplace⟩ := exists_place_of_writeFiles (hnames _ (List.mem_cons_self ..)) h
    exact lists_of_writesFiles hmakes hplace
      (writesFiles_of_writeFiles hnames hnodup hplace h)

end Program

end SemanticPass
