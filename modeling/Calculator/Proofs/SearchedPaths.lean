import Calculator.File.SearchPath
import Calculator.Proofs.FileTable
import Calculator.Proofs.OpenedNames
import Calculator.Proofs.OpenFile

/-!
# Files that are looked for

A name that is looked for is opened in the first directory of the path where it can be opened. The
requests before that one are refused, and so they change nothing; those behind it are not made.
-/

namespace Calculator

namespace SearchPath

/-- A name as it is written below a directory: alone where it is absolute or the directory is the current
one, and else behind the directory, with a slash between them where the directory does not end in one. -/
inductive Below : String → String → String → Prop
  | absolute (directory rest : String) : Below directory ("/" ++ rest) ("/" ++ rest)
  | current {name : String} (relative : ∀ rest, name ≠ "/" ++ rest) : Below "" name name
  | slashed {above name : String} (relative : ∀ rest, name ≠ "/" ++ rest) :
      Below (above ++ "/") name (above ++ "/" ++ name)
  | within {directory name : String} (relative : ∀ rest, name ≠ "/" ++ rest) (filled : directory ≠ "")
      (unslashed : ∀ above, directory ≠ above ++ "/") : Below directory name (directory ++ "/" ++ name)

/-- The name that an entry of a path leads to, or none. -/
inductive Leads (home : Option String) (name : String) : String → Option String → Prop
  | current {path : String} (below : Below "" name path) : Leads home name "" (some path)
  | home {directory path : String} (set : home = some directory) (below : Below directory name path) :
      Leads home name "~" (some path)
  | belowHome {directory rest entered path : String} (set : home = some directory)
      (enters : Below directory rest entered) (below : Below entered name path) :
      Leads home name ("~/" ++ rest) (some path)
  | homeless {entry : String} (unset : home = none)
      (wants : entry = "~" ∨ ∃ rest, entry = "~/" ++ rest) : Leads home name entry none
  | directory {entry path : String} (filled : entry ≠ "") (plain : entry ≠ "~")
      (elsewhere : ∀ rest, entry ≠ "~/" ++ rest) (below : Below entry name path) :
      Leads home name entry (some path)

theorem startsWith_iff (name start : String) :
    name.startsWith start = true ↔ ∃ rest, name = start ++ rest := by
  rw [String.startsWith_string_iff]
  constructor
  · rintro ⟨rest, same⟩
    refine ⟨String.ofList rest, String.toList_inj.mp ?_⟩
    rw [String.toList_append, String.toList_ofList, same]
  · rintro ⟨rest, rfl⟩
    exact ⟨rest.toList, (String.toList_append ..).symm⟩

theorem endsWith_iff (name finish : String) :
    name.endsWith finish = true ↔ ∃ rest, name = rest ++ finish := by
  rw [← String.endsWith_toSlice, String.Slice.endsWith_string_iff, String.copy_toSlice]
  constructor
  · rintro ⟨rest, same⟩
    refine ⟨String.ofList rest, String.toList_inj.mp ?_⟩
    rw [String.toList_append, String.toList_ofList, same]
  · rintro ⟨rest, rfl⟩
    exact ⟨rest.toList, (String.toList_append ..).symm⟩

theorem join_eq (directory name : String) :
    ((∃ rest, name = "/" ++ rest) ∨ directory = "" → join directory name = name)
    ∧ (¬ (∃ rest, name = "/" ++ rest) → directory ≠ "" →
      ((∃ above, directory = above ++ "/") → join directory name = directory ++ name)
      ∧ (¬ (∃ above, directory = above ++ "/") → join directory name = directory ++ "/" ++ name)) := by
  have alone : (Host.isAbsolute name || directory.isEmpty) = true
      ↔ (∃ rest, name = "/" ++ rest) ∨ directory = "" := by
    rw [Bool.or_eq_true_iff, String.isEmpty_iff, Host.isAbsolute, startsWith_iff]
  refine ⟨fun bare => ?_, fun relative filled => ⟨fun slash => ?_, fun unslashed => ?_⟩⟩
  · rw [join, if_pos (alone.mpr bare)]
  · rw [join, if_neg (mt alone.mp (not_or.mpr ⟨relative, filled⟩)), if_pos ((endsWith_iff _ _).mpr slash)]
  · rw [join, if_neg (mt alone.mp (not_or.mpr ⟨relative, filled⟩)),
      if_neg (mt (endsWith_iff _ _).mp unslashed)]

theorem below_iff (directory name path : String) :
    Below directory name path ↔ path = join directory name := by
  obtain ⟨bare, together⟩ := join_eq directory name
  constructor
  · intro below
    cases below with
    | absolute _ rest => exact (bare (.inl ⟨rest, rfl⟩)).symm
    | current => exact (bare (.inr rfl)).symm
    | @slashed above _ relative =>
        have filled : above ++ "/" ≠ "" := fun empty => by
          have length := congrArg String.length empty
          rw [String.length_append] at length
          exact Nat.succ_ne_zero _ length
        exact ((together (not_exists.mpr relative) filled).1 ⟨above, rfl⟩).symm
    | within relative filled unslashed =>
        exact ((together (not_exists.mpr relative) filled).2 (not_exists.mpr unslashed)).symm
  · rintro rfl
    by_cases rooted : ∃ rest, name = "/" ++ rest
    · rw [bare (.inl rooted)]
      obtain ⟨rest, rfl⟩ := rooted
      exact .absolute directory rest
    · have relative := not_exists.mp rooted
      by_cases empty : directory = ""
      · rw [bare (.inr empty), empty]
        exact .current relative
      · by_cases slash : ∃ above, directory = above ++ "/"
        · rw [(together rooted empty).1 slash]
          obtain ⟨above, rfl⟩ := slash
          exact .slashed relative
        · rw [(together rooted empty).2 slash]
          exact .within relative empty (not_exists.mp slash)

theorem below_join (directory name : String) : Below directory name (join directory name) :=
  (below_iff directory name _).mpr rfl

theorem isDirect_iff (name : String) :
    isDirect name = true
      ↔ ∃ rest, name = "/" ++ rest ∨ name = "./" ++ rest ∨ name = "../" ++ rest := by
  simp only [isDirect, Bool.or_eq_true_iff, startsWith_iff, exists_or, or_assoc]

variable {home : Option String} {name : String}

theorem leads (home : Option String) (name entry : String) :
    Leads home name entry ((expand home entry).map fun directory => join directory name) := by
  unfold expand
  split
  · rename_i tilde
    obtain rfl : entry = "~" := String.toList_inj.mp tilde
    cases home with
    | none => exact .homeless rfl (.inl rfl)
    | some directory => exact .home rfl (below_join directory name)
  · rename_i rest below
    obtain rfl : entry = "~/" ++ String.ofList rest := by
      apply String.toList_inj.mp
      rw [below, String.toList_append, String.toList_ofList, String.toList_ofList]
      rfl
    cases home with
    | none => exact .homeless rfl (.inr ⟨_, rfl⟩)
    | some directory => exact .belowHome rfl (below_join directory _) (below_join _ name)
  · rename_i plain below
    by_cases empty : entry = ""
    · subst empty
      exact .current (below_join "" name)
    · refine .directory empty (fun tilde => plain (by rw [tilde]; rfl)) (fun rest also => ?_)
        (below_join entry name)
      refine below rest.toList ?_
      rw [also, String.toList_append]
      rfl

theorem expand_below (home : Option String) (rest : String) :
    expand home ("~/" ++ rest) = home.map fun directory => join directory rest := by
  rw [expand, String.toList_append]
  show (home.map fun directory => join directory (String.ofList rest.toList)) = _
  rw [String.ofList_toList]

theorem expand_plain (home : Option String) {entry : String} (plain : entry ≠ "~")
    (elsewhere : ∀ rest, entry ≠ "~/" ++ rest) : expand home entry = some entry := by
  unfold expand
  split
  · rename_i tilde
    exact absurd (String.toList_inj.mp tilde) plain
  · rename_i rest below
    refine absurd (String.toList_inj.mp ?_) (elsewhere (String.ofList rest))
    rw [below, String.toList_append, String.toList_ofList, String.toList_ofList]
    rfl
  · rfl

theorem leads_iff (home : Option String) (name entry : String) (found : Option String) :
    Leads home name entry found
      ↔ found = (expand home entry).map fun directory => join directory name := by
  constructor
  · intro leads
    cases leads with
    | current below =>
        rw [(below_iff _ _ _).mp below, expand_plain home (by decide)]
        · rfl
        · intro rest same
          have spelled := congrArg String.toList same
          rw [String.toList_append] at spelled
          cases spelled
    | home set below => rw [(below_iff _ _ _).mp below, set]; rfl
    | belowHome set enters below =>
        rw [(below_iff _ _ _).mp below, (below_iff _ _ _).mp enters, expand_below, set]
        rfl
    | homeless unset wants =>
        rw [unset]
        rcases wants with rfl | ⟨rest, rfl⟩
        · rfl
        · rw [expand_below]
          rfl
    | directory _ plain elsewhere below =>
        rw [(below_iff _ _ _).mp below, expand_plain home plain elsewhere]
        rfl
  · rintro rfl
    exact leads home name entry

/-- What is tried is what the entries of the path lead to, in their order. -/
theorem forall₂_leads_iff (home : Option String) (path name : String) (options : List (Option String)) :
    List.Forall₂ (Leads home name) (path.splitOn ":") options
      ↔ options = (path.splitOn ":").map fun entry => (expand home entry).map fun directory =>
          join directory name := by
  have exactly : Leads home name = fun entry found =>
      found = (expand home entry).map fun directory => join directory name :=
    funext fun entry => funext fun found => propext (leads_iff home name entry found)
  rw [exactly, eq_comm, ← List.forall₂_eq_eq_eq, List.forall₂_map_left_iff]
  simp only [eq_comm]

theorem candidates_lead (home : Option String) (path name : String) :
    candidates home path name
      = ((path.splitOn ":").map fun entry => (expand home entry).map fun directory =>
          join directory name).reduceOption := by
  rw [candidates, List.reduceOption, List.filterMap_map]
  rfl

end SearchPath

namespace Files

variable {files : Files} {mode : Mode} {candidate : String} {candidates : List String}

def opens (files : Files) (mode : Mode) (candidate : String) : Bool :=
  (files.host.openName candidate mode.request).1.toBool

theorem openFirst_refused (candidates : List String) (refused : files.opens mode candidate = false)
    (failure : FileError) :
    ∃ fault, files.host.openName candidate mode.request = (.error fault, files.host)
      ∧ openFirst mode failure (candidate :: candidates) files
        = openFirst mode (.host fault) candidates files := by
  rcases asked : files.host.openName candidate mode.request with ⟨answer, host⟩
  rw [opens, asked] at refused
  cases answer with
  | ok descriptor => cases refused
  | error fault =>
      obtain rfl := Host.openName_refused asked
      refine ⟨fault, rfl, ?_⟩
      rw [openFirst, Effect.get_bind_run, asked]
      rfl

/-- The first candidate that can be opened is, whatever was refused before it. -/
theorem openFirst_found (first : candidates.find? (files.opens mode) = some candidate)
    (failure : FileError) :
    ∃ descriptor host, files.host.openName candidate mode.request = (.ok descriptor, host)
      ∧ openFirst mode failure candidates files
        = (.ok (({ files with host } : Files).enter descriptor candidate mode).1,
          (({ files with host } : Files).enter descriptor candidate mode).2) := by
  induction candidates generalizing failure with
  | nil => cases first
  | cons other rest ih =>
      rw [List.find?_cons] at first
      cases granted : files.opens mode other with
      | true =>
          rw [granted] at first
          cases first
          rcases asked : files.host.openName candidate mode.request with ⟨answer, host⟩
          rw [opens, asked] at granted
          cases answer with
          | error fault => cases granted
          | ok descriptor =>
              refine ⟨descriptor, host, rfl, ?_⟩
              rw [openFirst, Effect.get_bind_run, asked]
              rfl
      | false =>
          rw [granted] at first
          obtain ⟨fault, _, next⟩ := openFirst_refused rest granted failure
          rw [next]
          exact ih first (.host fault)

/-- Where none can be opened the last refusal is the answer. -/
theorem openFirst_none (none : candidates.find? (files.opens mode) = none) (failure : FileError) :
    ∃ error, openFirst mode failure candidates files = (.error error, files)
      ∧ (candidates = [] ∧ error = failure
        ∨ ∃ last fault, candidates.getLast? = some last ∧ error = .host fault
          ∧ files.host.openName last mode.request = (.error fault, files.host)) := by
  induction candidates generalizing failure with
  | nil => exact ⟨failure, rfl, .inl ⟨rfl, rfl⟩⟩
  | cons other rest ih =>
      rw [List.find?_cons] at none
      cases granted : files.opens mode other with
      | true =>
          rw [granted] at none
          cases none
      | false =>
          rw [granted] at none
          obtain ⟨fault, refused, next⟩ := openFirst_refused rest granted failure
          obtain ⟨error, ran, cause⟩ := ih none (.host fault)
          refine ⟨error, next.trans ran, .inr ?_⟩
          rcases cause with ⟨rfl, rfl⟩ | ⟨last, later, there, rfl, refusal⟩
          · exact ⟨other, fault, rfl, rfl, refused⟩
          · refine ⟨last, later, ?_, rfl, refusal⟩
            rw [List.getLast?_cons, there]
            rfl

theorem openAlong_direct (name mode path : String) (files : Files)
    (direct : SearchPath.isDirect name = true ∨ path = "") :
    openAlong name mode path files = openFile name mode files := by
  have parsed := parseMode_run mode files
  have roomy := requireRoom_run files
  have plain : (SearchPath.isDirect name || path.isEmpty) = true := by
    rw [Bool.or_eq_true_iff, String.isEmpty_iff]
    exact direct
  unfold openAlong
  cases text : Mode.parse? mode with
  | none =>
      rw [text] at parsed
      rw [Effect.bind_error parsed]
      exact (Effect.bind_error parsed).symm
  | some taken =>
      rw [text] at parsed
      rw [Effect.bind_ok parsed]
      cases full : files.table.isFull with
      | true =>
          rw [full] at roomy
          rw [Effect.bind_error roomy]
          exact ((Effect.bind_ok parsed).trans (Effect.bind_error roomy)).symm
      | false =>
          rw [full] at roomy
          rw [Effect.bind_ok roomy, plain]
          rfl

theorem openAlong_searches {name path text : String} (room : files.table.isFull = false)
    (valid : Mode.parse? text = some mode) (searched : SearchPath.isDirect name = false)
    (listed : path ≠ "") :
    openAlong name text path files
      = openFirst mode (.host .nothingTried) (SearchPath.candidates files.host.home path name) files := by
  have parsed := parseMode_run text files
  have roomy := requireRoom_run files
  have plain : (SearchPath.isDirect name || path.isEmpty) = false := by
    rw [searched, Bool.false_or, ← Bool.not_eq_true, String.isEmpty_iff]
    exact listed
  rw [valid] at parsed
  rw [room] at roomy
  unfold openAlong
  rw [Effect.bind_ok parsed, Effect.bind_ok roomy, plain]
  rfl

end Files

/-- A name that is absolute or starts with `./` or `../`, or one for which there is no path, is opened as
it is. Any other is looked for: what the entries of the path lead to is tried in their order, and the
first name that can be opened gets the one entry that is added, with the next handle. No other name
stands for another file, or for other bytes, than before. Where nothing can be opened the files are as
they were, and the error is that of the last name tried, or that nothing was tried. -/
theorem path_search_opens_first (files : Files) (name text path : String) (mode : Mode)
    (room : files.table.isFull = false) (valid : Mode.parse? text = some mode) :
    ((∃ rest, name = "/" ++ rest ∨ name = "./" ++ rest ∨ name = "../" ++ rest) ∨ path = "" →
      Files.openAlong name text path files = Files.openFile name text files)
    ∧ ((∀ rest, name ≠ "/" ++ rest ∧ name ≠ "./" ++ rest ∧ name ≠ "../" ++ rest) → path ≠ "" →
      ∃ options, List.Forall₂ (SearchPath.Leads files.host.home name) (path.splitOn ":") options
        ∧ let tried := options.reduceOption
        let ran := Files.openAlong name text path files
        match tried.find? (files.opens mode) with
        | some candidate => ∃ descriptor host entry,
            files.host.openName candidate mode.request = (.ok descriptor, host)
              ∧ ran = (.ok entry.id, {
                table := { files.table with
                  entries := files.table.entries ++ [entry]
                  lastId := files.table.lastId + 1 }
                host := host })
              ∧ entry.id = ⟨files.table.lastId + 1⟩ ∧ entry.name = candidate ∧ entry.mode = mode
              ∧ entry.stream = Stream.new descriptor true
              ∧ ∀ other content, (∀ node, host.resolve other = .ok node → entry.node ≠ some node) →
                (host.find? other = some (.file content)
                  ↔ files.host.find? other = some (.file content))
        | none => ∃ fault, ran = (.error (.host fault), files)
            ∧ (tried = [] ∧ fault = .nothingTried
              ∨ ∃ last, tried.getLast? = some last
                ∧ (files.host.openName last mode.request).1 = .error fault)) := by
  rw [← SearchPath.isDirect_iff]
  refine ⟨Files.openAlong_direct name text path files, fun apart listed => ?_⟩
  have searched : SearchPath.isDirect name = false := by
    rw [← Bool.not_eq_true, SearchPath.isDirect_iff]
    rintro ⟨rest, rooted | current | above⟩
    · exact (apart rest).1 rooted
    · exact (apart rest).2.1 current
    · exact (apart rest).2.2 above
  refine ⟨_, (SearchPath.forall₂_leads_iff files.host.home path name _).mpr rfl, ?_⟩
  intro tried ran
  have runs : ran = Files.openFirst mode (.host .nothingTried) tried files := by
    rw [show tried = _ from (SearchPath.candidates_lead files.host.home path name).symm]
    exact Files.openAlong_searches room valid searched listed
  rw [runs]
  split
  · rename_i candidate first
    obtain ⟨descriptor, host, asked, opened⟩ := Files.openFirst_found first (.host .nothingTried)
    obtain ⟨node, granted⟩ := Host.openName_granted asked
    have own := Files.newEntry_node granted ⟨files.table.lastId + 1⟩ candidate mode
    refine ⟨descriptor, host,
      Files.newEntry host ⟨files.table.lastId + 1⟩ descriptor candidate mode true,
      asked, opened, rfl, rfl, rfl, rfl, fun other content apart =>
        granted.find? (fun same => ?_) content⟩
    exact apart node same own
  · rename_i none
    obtain ⟨error, refused, cause⟩ := Files.openFirst_none none (.host .nothingTried)
    rcases cause with ⟨untried, rfl⟩ | ⟨last, fault, there, rfl, asked⟩
    · exact ⟨.nothingTried, refused, .inl ⟨untried, rfl⟩⟩
    · exact ⟨fault, refused, .inr ⟨last, there, congrArg Prod.fst asked⟩⟩

namespace SearchSample

def files : Files :=
  Files.new ((Host.start none none [] true).store "s/a" [0x61, 0x62, 0x63, 0x64, 0x65]).2 20 1024 false

def path : String := "~::s"

theorem elsewhere_is_refused :
    files.opens { base := .read, binary := false, update := false } "a" = false := by
  cbv

theorem directory_has_file :
    files.opens { base := .read, binary := false, update := false } "s/a" = true := by
  cbv

/-- The file is found in the directory of the third entry. -/
theorem third_entry_is_opened :
    ∃ entry, (Files.openAlong "a" "r" path files).1 = .ok entry.id ∧ entry.id = ⟨3⟩
      ∧ entry.name = "s/a"
      ∧ (Files.openAlong "a" "r" path files).2.table.entries = files.table.entries ++ [entry] := by
  have plain : ∀ rest, "a" ≠ "/" ++ rest ∧ "a" ≠ "./" ++ rest ∧ "a" ≠ "../" ++ rest := by
    have searched : SearchPath.isDirect "a" = false := by cbv
    rw [← Bool.not_eq_true, SearchPath.isDirect_iff] at searched
    simpa only [not_exists, not_or] using searched
  obtain ⟨options, leads, outcome⟩ := (path_search_opens_first files "a" "r" path
    { base := .read, binary := false, update := false } (by cbv) (by cbv)).2 plain (by decide)
  have homeless : files.host.home = none := by cbv
  have listed : SearchPath.candidates none path "a" = ["a", "s/a"] := by cbv
  have tried : options.reduceOption = ["a", "s/a"] := by
    rw [(SearchPath.forall₂_leads_iff _ _ _ _).mp leads, ← SearchPath.candidates_lead, homeless, listed]
  have first : ["a", "s/a"].find? (files.opens { base := .read, binary := false, update := false })
      = some "s/a" :=
    (List.find?_cons_of_neg (by rw [elsewhere_is_refused]; decide)).trans
      (List.find?_cons_of_pos directory_has_file)
  rw [tried] at outcome
  dsimp only at outcome
  rw [first] at outcome
  obtain ⟨_, _, entry, _, ran, own, name, _⟩ := outcome
  exact ⟨entry, congrArg Prod.fst ran, own, name, congrArg (fun after => after.2.table.entries) ran⟩

end SearchSample

end Calculator
