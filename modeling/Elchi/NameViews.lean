import Mathlib.Data.List.DropRight
import Elchi.SatoMatcher
namespace Elchi.Sato

def Solid (text : List Char) : Prop := ∀ c ∈ text,jsSpace c = false

-- Whether a text ends inside a run of white space.
def runOpen : Bool → List Char → Bool
  | inside,[] => inside
  | _,c :: rest => runOpen (jsSpace c) rest
theorem runOpen_last (inside : Bool) (text : List Char) (c : Char) : runOpen inside (text ++ [c]) = jsSpace c := by
  induction text generalizing inside with
  | nil => rfl
  | cons head rest ih => exact ih (jsSpace head)

theorem collapse_nil (inside : Bool) : collapseSpaces inside [] = [] := rfl
theorem collapse_cons (inside : Bool) (c : Char) (rest : List Char) : collapseSpaces inside (c :: rest) =
    if jsSpace c then if inside then collapseSpaces true rest else ' ' :: collapseSpaces true rest
    else c :: collapseSpaces false rest := rfl
theorem collapse_append (inside : Bool) (s t : List Char) :
    collapseSpaces inside (s ++ t) = collapseSpaces inside s ++ collapseSpaces (runOpen inside s) t := by
  induction s generalizing inside with
  | nil => rfl
  | cons c rest ih =>
    by_cases space : jsSpace c = true
    · cases inside <;> simp [collapse_cons,runOpen,space,ih]
    · simp [collapse_cons,runOpen,space,ih]
theorem collapse_solid_cons (solid : jsSpace c = false) (inside : Bool) (rest : List Char) :
    collapseSpaces inside (c :: rest) = c :: collapseSpaces false rest := by
  simp [collapse_cons,solid]
theorem collapse_split (solid : jsSpace c = false) (inside : Bool) (s t : List Char) :
    collapseSpaces inside (s ++ c :: t) = collapseSpaces inside s ++ c :: collapseSpaces false t := by
  rw [collapse_append,collapse_solid_cons solid]
theorem collapse_solid (solid : Solid w) (filled : w ≠ []) (inside : Bool) (s : List Char) :
    collapseSpaces inside (w ++ s) = w ++ collapseSpaces false s := by
  induction w generalizing inside with
  | nil => exact absurd rfl filled
  | cons c rest ih =>
    rw [List.cons_append,collapse_solid_cons (solid c List.mem_cons_self)]
    cases rest with
    | nil => rfl
    | cons d more => rw [ih (fun x mem => solid x (List.mem_cons_of_mem c mem)) (List.cons_ne_nil d more)]; rfl

-- A run of white space at the head becomes one blank, or none inside a run.
def oneBlank (run : List Char) : List Char := if run = [] then [] else [' ']
theorem collapse_run (spaces : ∀ c ∈ w,jsSpace c = true) (s : List Char) :
    collapseSpaces true (w ++ s) = collapseSpaces true s := by
  induction w with
  | nil => rfl
  | cons c rest ih =>
    simpa [collapse_nil,collapse_cons,spaces c List.mem_cons_self] using ih fun x mem => spaces x (List.mem_cons_of_mem c mem)
theorem collapse_head (spaces : ∀ c ∈ w,jsSpace c = true) (filled : w ≠ []) (s : List Char) :
    collapseSpaces false (w ++ s) = ' ' :: collapseSpaces true s := by
  cases w with
  | nil => exact absurd rfl filled
  | cons c rest =>
    have later := collapse_run (fun x mem => spaces x (List.mem_cons_of_mem c mem)) s
    simp [collapse_cons,spaces c List.mem_cons_self,later]
theorem collapse_blanks (spaces : ∀ c ∈ w,jsSpace c = true) : collapseSpaces false w = oneBlank w := by
  by_cases empty : w = []
  · subst empty
    rfl
  · simpa [oneBlank,empty,collapse_nil,collapse_cons] using collapse_head spaces empty []

-- Up to its first white space a text stays as it is.
def SolidHead (text : List Char) : Prop := ∀ c rest,text = c :: rest → jsSpace c = false
theorem collapse_solidHead (head : SolidHead q) (inside : Bool) : collapseSpaces inside q = collapseSpaces false q := by
  cases q with
  | nil => cases inside <;> rfl
  | cons c rest => rw [collapse_solid_cons (head c rest rfl),collapse_solid_cons (head c rest rfl)]
theorem solidHead_collapse (head : SolidHead q) : SolidHead (collapseSpaces false q) := by
  cases q with
  | nil =>
    intro c rest eq
    cases eq
  | cons d more =>
    rw [collapse_solid_cons (head d more rfl)]
    intro c rest eq
    cases eq
    exact head _ more rfl
theorem solidHead_dropWhile (s : List Char) : SolidHead (s.dropWhile jsSpace) := by
  intro c rest eq
  have found := List.head?_dropWhile_not jsSpace s
  rw [eq] at found
  simpa using found
theorem collapse_parts (spaces : ∀ c ∈ w,jsSpace c = true) (head : SolidHead q) :
    collapseSpaces false (w ++ q) = oneBlank w ++ collapseSpaces false q := by
  by_cases empty : w = []
  · subst empty
    rfl
  · rw [collapse_head spaces empty,collapse_solidHead head]
    simp [oneBlank,empty]
theorem oneBlank_spaces (w : List Char) : ∀ c ∈ oneBlank w,jsSpace c = true := by
  intro c mem
  unfold oneBlank at mem
  split at mem
  · cases mem
  · cases List.mem_singleton.mp mem
    decide
theorem collapse_oneBlank (spaces : ∀ c ∈ w,jsSpace c = true) (inside : Bool) :
    collapseSpaces inside (oneBlank w) = collapseSpaces inside w := by
  by_cases empty : w = []
  · subst empty
    rfl
  · have later := collapse_run spaces []
    have first := collapse_head spaces empty []
    rw [List.append_nil] at later first
    cases inside
    · rw [first]
      simp [oneBlank,empty,collapse_nil,collapse_cons,jsSpace]
    · rw [later]
      simp [oneBlank,empty,collapse_nil,collapse_cons,jsSpace]
theorem takeWhile_spaces (s : List Char) : ∀ c ∈ s.takeWhile jsSpace,jsSpace c = true := fun _ => List.mem_takeWhile_imp
theorem dropWhile_parts (spaces : ∀ c ∈ w,jsSpace c = true) (head : SolidHead q) : (w ++ q).dropWhile jsSpace = q := by
  rw [List.dropWhile_append_of_pos spaces]
  cases q with
  | nil => rfl
  | cons c rest => simp [head c rest rfl]
theorem takeWhile_parts (spaces : ∀ c ∈ w,jsSpace c = true) (head : SolidHead q) : (w ++ q).takeWhile jsSpace = w := by
  rw [List.takeWhile_append_of_pos spaces]
  cases q with
  | nil => simp
  | cons c rest => simp [head c rest rfl]
theorem dropWhile_collapse (s : List Char) :
    (collapseSpaces false s).dropWhile jsSpace = collapseSpaces false (s.dropWhile jsSpace) := by
  have head := solidHead_dropWhile s
  conv_lhs => rw [← List.takeWhile_append_dropWhile (p := jsSpace) (l := s)]
  rw [collapse_parts (takeWhile_spaces s) head]
  exact dropWhile_parts (oneBlank_spaces _) (solidHead_collapse head)

theorem prefix_collapse (solid : Solid w) : w <+: collapseSpaces false s ↔ w <+: s := by
  induction w generalizing s with
  | nil => simp
  | cons c rest ih =>
    have own := solid c List.mem_cons_self
    have later := fun t => ih (s:=t) fun x mem => solid x (List.mem_cons_of_mem c mem)
    cases s with
    | nil => simp [collapse_nil]
    | cons d more =>
      by_cases space : jsSpace d = true
      · have apart : c ≠ d := by
          intro eq
          rw [eq,space] at own
          cases own
        have blank : c ≠ ' ' := by
          intro eq
          rw [eq] at own
          revert own
          decide
        simp [collapse_cons,space,List.cons_prefix_cons,apart,blank]
      · rw [collapse_solid_cons (by simpa using space),List.cons_prefix_cons,List.cons_prefix_cons,later]
-- White-space-free text is found in a text exactly when it is found in the collapsed one.
theorem infix_collapse (solid : Solid w) (filled : w ≠ []) (inside : Bool) (s : List Char) :
    w <:+: collapseSpaces inside s ↔ w <:+: s := by
  obtain ⟨c,rest,rfl⟩ := List.exists_cons_of_ne_nil filled
  have own := solid c List.mem_cons_self
  have apart : ∀ d,jsSpace d = true → c ≠ d := by
    intro d space eq
    rw [eq,space] at own
    cases own
  induction s generalizing inside with
  | nil => simp [collapse_nil]
  | cons d more ih =>
    by_cases space : jsSpace d = true
    · have blank : c ≠ ' ' := apart ' ' (by decide)
      have missing := apart d space
      cases inside <;> simp [collapse_cons,space,List.infix_cons_iff,List.cons_prefix_cons,missing,blank,ih]
    · have plain : jsSpace d = false := by simpa using space
      have start := prefix_collapse (s:=d :: more) solid
      rw [collapse_solid_cons plain] at start ⊢
      rw [List.infix_cons_iff,List.infix_cons_iff,start]
      exact or_congr_right (ih false)

def suffixes : List String := ["viloyati","tumani","respublikasi"]
def suffixWord (text : List Char) : Option String := suffixes.find? fun word => word.toList.isPrefixOf (text.map Char.toLower)
theorem drop_run (s : List Char) : s.drop (s.takeWhile jsSpace).length = s.dropWhile jsSpace := by
  have parts : (s.takeWhile jsSpace ++ s.dropWhile jsSpace).drop (s.takeWhile jsSpace).length = s.dropWhile jsSpace := List.drop_left
  rwa [List.takeWhile_append_dropWhile] at parts
theorem suffixLength_word (chars : List Char) :
    suffixLength chars = (suffixWord (chars.dropWhile jsSpace)).map fun word =>
      (chars.takeWhile jsSpace).length + word.length +
        (((chars.dropWhile jsSpace).drop word.length).takeWhile jsSpace).length := by
  simp only [suffixLength,drop_run,suffixWord,suffixes]

theorem lower_outside {c : Char} (outside : c.toNat < 65 ∨ 90 < c.toNat) : c.toLower = c := by
  refine dif_neg fun ⟨low,high⟩ => ?_
  have low' : 65 ≤ c.toNat := low
  have high' : c.toNat ≤ 90 := high
  omega
theorem lower_space {c : Char} (space : jsSpace c = true) : c.toLower = c := by
  have apart : ∀ n ∈ [9,10,11,12,13,32,160,5760,8192,8193,8194,8195,8196,8197,8198,8199,8200,8201,8202,8232,8233,8239,8287,12288,65279],
      n < 65 ∨ 90 < n := by decide
  exact lower_outside (apart c.toNat (by simpa [jsSpace] using space))
theorem solid_suffix (mem : word ∈ suffixes) : Solid word.toList := by
  have all : ∀ word ∈ suffixes,∀ c ∈ word.toList,jsSpace c = false := by simp [suffixes,jsSpace]
  exact all word mem
-- The text under a suffix word holds no white space.
theorem solid_lowered (mem : word ∈ suffixes) (same : w.map Char.toLower = word.toList) : Solid w := by
  intro c inside
  rw [Bool.eq_false_iff]
  intro space
  have found := List.mem_map_of_mem (f := Char.toLower) inside
  rw [same,lower_space space] at found
  rw [solid_suffix mem c found] at space
  cases space
theorem prefix_word_collapse (mem : word ∈ suffixes) (s : List Char) :
    word.toList <+: (collapseSpaces false s).map Char.toLower ↔ word.toList <+: s.map Char.toLower := by
  rw [List.prefix_map_iff,List.prefix_map_iff]
  constructor
  · rintro ⟨w,found,same⟩
    exact ⟨w,(prefix_collapse (solid_lowered mem same.symm)).mp found,same⟩
  · rintro ⟨w,found,same⟩
    exact ⟨w,(prefix_collapse (solid_lowered mem same.symm)).mpr found,same⟩
theorem suffixWord_collapse (s : List Char) : suffixWord (collapseSpaces false s) = suffixWord s := by
  unfold suffixWord
  have same : ∀ word ∈ suffixes,word.toList.isPrefixOf ((collapseSpaces false s).map Char.toLower) =
      word.toList.isPrefixOf (s.map Char.toLower) := by
    intro word mem
    rw [Bool.eq_iff_iff,List.isPrefixOf_iff_prefix,List.isPrefixOf_iff_prefix]
    exact prefix_word_collapse mem s
  simp only [suffixes,List.find?_cons,List.find?_nil] at same ⊢
  rw [same _ (by simp),same _ (by simp),same _ (by simp)]
theorem suffixWord_parts (found : suffixWord q = some word) :
    ∃ w rest,q = w ++ rest ∧ w.length = word.length ∧ w ≠ [] ∧ Solid w := by
  have mem := List.mem_of_find?_eq_some found
  have start := List.find?_some found
  obtain ⟨w,⟨rest,eq⟩,same⟩ := List.prefix_map_iff.mp (List.isPrefixOf_iff_prefix.mp start)
  have size : w.length = word.length := by
    have lengths := congrArg List.length same
    rw [List.length_map,String.length_toList] at lengths
    exact lengths.symm
  refine ⟨w,rest,eq.symm,size,?_,solid_lowered mem same.symm⟩
  intro empty
  have filled : ∀ word ∈ suffixes,word.length ≠ 0 := by decide
  exact filled word mem (by rw [← size,empty]; rfl)

theorem dropSuffixes_passed (n : Nat) (c : Char) (rest : List Char) : dropSuffixes (n + 1) (c :: rest) = dropSuffixes n rest := rfl
theorem dropSuffixes_cons (c : Char) (rest : List Char) : dropSuffixes 0 (c :: rest) =
    match suffixLength (c :: rest) with
    | some length => ' ' :: dropSuffixes (length - 1) rest
    | none => c :: dropSuffixes 0 rest := rfl
theorem dropSuffixes_skip (n : Nat) (s : List Char) : dropSuffixes n s = dropSuffixes 0 (s.drop n) := by
  induction n generalizing s with
  | zero => simp
  | succ n ih =>
    cases s with
    | nil => rfl
    | cons c rest => simpa [dropSuffixes_passed] using ih rest
-- A suffix word goes with the white space on both of its sides.
theorem dropSuffixes_word (spaces : ∀ c ∈ w,jsSpace c = true) (head : SolidHead q) (found : suffixWord q = some word) :
    dropSuffixes 0 (w ++ q) = ' ' :: dropSuffixes 0 ((q.drop word.length).dropWhile jsSpace) := by
  obtain ⟨under,rest,eq,size,filled,-⟩ := suffixWord_parts found
  have long : suffixLength (w ++ q) = some (w.length + word.length + ((q.drop word.length).takeWhile jsSpace).length) := by
    rw [suffixLength_word,dropWhile_parts spaces head,takeWhile_parts spaces head,found]
    rfl
  have positive : 0 < word.length := size ▸ List.length_pos_iff.mpr filled
  have tail := drop_run (q.drop word.length)
  cases parts : w ++ q with
  | nil =>
    rw [eq] at parts
    simp [filled] at parts
  | cons c more =>
    rw [parts] at long
    simp only [dropSuffixes_cons,long]
    rw [dropSuffixes_skip,← tail,List.drop_drop]
    have whole : (w ++ q).drop (w.length + word.length + ((q.drop word.length).takeWhile jsSpace).length) =
        q.drop (word.length + ((q.drop word.length).takeWhile jsSpace).length) := by
      rw [Nat.add_assoc,← List.drop_drop,List.drop_left]
    rw [parts] at whole
    rw [← whole]
    obtain ⟨n,succ⟩ := Nat.exists_eq_succ_of_ne_zero (n:=w.length + word.length + ((q.drop word.length).takeWhile jsSpace).length) (by omega)
    rw [succ]
    rfl
theorem dropSuffixes_spaces (spaces : ∀ c ∈ w,jsSpace c = true) (head : SolidHead q) (missing : suffixWord q = none) :
    dropSuffixes 0 (w ++ q) = w ++ dropSuffixes 0 q := by
  induction w with
  | nil => rfl
  | cons c rest ih =>
    have none : suffixLength (c :: (rest ++ q)) = none := by
      rw [← List.cons_append,suffixLength_word,dropWhile_parts spaces head,missing]
      rfl
    rw [List.cons_append,dropSuffixes_cons,none]
    simpa using ih fun x mem => spaces x (List.mem_cons_of_mem c mem)
theorem dropSuffixes_solid (solid : jsSpace c = false) (missing : suffixWord (c :: rest) = none) :
    dropSuffixes 0 (c :: rest) = c :: dropSuffixes 0 rest := by
  have none : suffixLength (c :: rest) = none := by
    rw [suffixLength_word]
    simp [solid,missing]
  rw [dropSuffixes_cons,none]

-- Dropping the suffixes sees no more of the white space than the collapsed text shows.
theorem dropSuffixes_collapse (inside : Bool) (s : List Char) :
    collapseSpaces inside (dropSuffixes 0 (collapseSpaces false s)) = collapseSpaces inside (dropSuffixes 0 s) := by
  induction size : s.length using Nat.strongRecOn generalizing inside s with
  | ind n ih =>
    have spaces := takeWhile_spaces s
    have head := solidHead_dropWhile s
    have parts := List.takeWhile_append_dropWhile (p := jsSpace) (l := s)
    generalize s.takeWhile jsSpace = w at spaces parts
    generalize s.dropWhile jsSpace = q at head parts
    subst parts size
    rw [collapse_parts spaces head]
    have head' := solidHead_collapse head
    cases found : suffixWord q with
    | some word =>
      have found' : suffixWord (collapseSpaces false q) = some word := by rw [suffixWord_collapse,found]
      obtain ⟨under,rest,rfl,long,filled,solid⟩ := suffixWord_parts found
      rw [dropSuffixes_word (oneBlank_spaces w) head' found',dropSuffixes_word spaces head found]
      rw [collapse_solid solid filled,← long,List.drop_left,List.drop_left,dropWhile_collapse]
      have shorter : (rest.dropWhile jsSpace).length < (w ++ (under ++ rest)).length := by
        have atMost := List.length_dropWhile_le jsSpace rest
        have positive := List.length_pos_iff.mpr filled
        simp only [List.length_append]
        omega
      have again := fun flag => ih _ shorter flag (rest.dropWhile jsSpace) rfl
      cases inside <;> simp [collapse_cons,again]
    | none =>
      have found' : suffixWord (collapseSpaces false q) = none := by rw [suffixWord_collapse,found]
      rw [dropSuffixes_spaces (oneBlank_spaces w) head' found',dropSuffixes_spaces spaces head found]
      cases q with
      | nil =>
        simpa only [collapse_nil,collapse_cons,dropSuffixes,List.append_nil] using collapse_oneBlank spaces inside
      | cons c rest =>
        have solid := head c rest rfl
        have shorter : rest.length < (w ++ c :: rest).length := by
          simp only [List.length_append,List.length_cons]
          omega
        have again := ih _ shorter false rest rfl
        rw [collapse_solid_cons solid] at found' ⊢
        rw [dropSuffixes_solid solid found,dropSuffixes_solid solid found',collapse_split solid,collapse_split solid,again]
        rw [collapse_oneBlank spaces]

-- What the matching reads of a name besides its cleaned text.
structure NameView where
  shahri : Bool
  tumani : Bool
  toshkent : Bool
  viloyat : Bool
  plain : String
deriving DecidableEq, Repr
def nameView (forms : TextForms) (name : String) : NameView where
  shahri := includes (cleanName forms name) "shahri" || includes (cleanName forms name) "shahar"
  tumani := includes (cleanName forms name) "tumani" || includes (cleanName forms name) "tuman"
  toshkent := includes (cleanName forms name) "toshkent"
  viloyat := includes (cleanName forms name) "viloyati" || includes (cleanName forms name) "viloyat"
  plain := normalizeName forms name false
def NameView.city (view : NameView) : Bool := view.toshkent && view.shahri
def NameView.province (view : NameView) : Bool := view.toshkent && view.viloyat
-- A name with such a view contradicts itself: it would not match its own view.
def NameView.conflicting (view : NameView) : Bool := (view.shahri && view.tumani) || (view.city && view.province)
def shows (plain : String) (entry : String × List String) : Bool := includes plain entry.1 || entry.2.any (includes plain)
def alike (n1 n2 : String) : Bool :=
  n1 = n2 || (includes n1 n2 || includes n2 n1) || specialMatches.any fun entry => shows n1 entry && shows n2 entry
def judged (v1 v2 : NameView) : Bool :=
  !((v1.shahri && v2.tumani) || (v1.tumani && v2.shahri)) && v1.shahri == v2.shahri && v1.tumani == v2.tumani &&
    !((v1.city && v2.province) || (v1.province && v2.city)) &&
    (if v1.city || v2.city then v1.city && v2.city
      else if v1.province || v2.province then v1.province && v2.province
      else alike v1.plain v2.plain)

theorem alike_checks (n1 n2 : String) :
    (if n1 = n2 then true
      else if includes n1 n2 || includes n2 n1 then true
      else specialMatches.any fun (key,variants) =>
        (includes n1 key || variants.any (includes n1)) && (includes n2 key || variants.any (includes n2))) = alike n1 n2 := by
  unfold alike shows
  by_cases same : n1 = n2
  · simp [same]
  · cases inside : includes n1 n2 || includes n2 n1 <;> simp [same]
-- The refusals of the source one after another, as the code writes them.
theorem judged_checks (v1 v2 : NameView) :
    (if (v1.shahri && v2.tumani) || (v1.tumani && v2.shahri) then false
      else if v1.shahri != v2.shahri then false
      else if v1.tumani != v2.tumani then false
      else if (v1.city && v2.province) || (v1.province && v2.city) then false
      else if v1.city || v2.city then v1.city && v2.city
      else if v1.province || v2.province then v1.province && v2.province
      else alike v1.plain v2.plain) = judged v1 v2 := by
  unfold judged
  cases (v1.shahri && v2.tumani) || (v1.tumani && v2.shahri) <;> cases v1.shahri <;> cases v2.shahri <;>
    cases v1.tumani <;> cases v2.tumani <;> cases (v1.city && v2.province) || (v1.province && v2.city) <;> rfl
theorem namesMatch_judged (forms : TextForms) (a b : String) :
    namesMatch forms a b = (decide (cleanName forms a = cleanName forms b) || judged (nameView forms a) (nameView forms b)) := by
  rw [← judged_checks,← alike_checks]
  by_cases same : cleanName forms a = cleanName forms b
  · simp [namesMatch_same same,same]
  · rw [decide_eq_false same,Bool.false_or]
    unfold namesMatch nameView NameView.city NameView.province
    dsimp only
    refine (if_neg same).trans ?_
    generalize includes = part
    rfl
theorem alike_comm (n1 n2 : String) : alike n1 n2 = alike n2 n1 := by
  have swapped : ∀ entry,(shows n1 entry && shows n2 entry) = (shows n2 entry && shows n1 entry) := fun _ => Bool.and_comm ..
  simp only [alike,swapped,eq_comm (a:=n1),Bool.or_comm (includes n1 n2)]
theorem alike_self (plain : String) : alike plain plain = true := by simp [alike]
theorem judged_comm (v1 v2 : NameView) : judged v1 v2 = judged v2 v1 := by
  unfold judged
  rw [alike_comm v1.plain,BEq.comm (a:=v1.shahri),BEq.comm (a:=v1.tumani)]
  rw [Bool.or_comm (v1.shahri && v2.tumani),Bool.and_comm v1.tumani,Bool.and_comm v1.shahri]
  rw [Bool.or_comm (v1.city && v2.province),Bool.and_comm v1.province v2.city,Bool.and_comm v1.city v2.province]
  rw [Bool.or_comm v1.city,Bool.or_comm v1.province,Bool.and_comm v1.city,Bool.and_comm v1.province]
theorem judged_self (view : NameView) : judged view view = !view.conflicting := by
  unfold judged NameView.conflicting
  rw [alike_self]
  cases view.shahri <;> cases view.tumani <;> cases view.city <;> cases view.province <;> rfl
theorem namesMatch_comm (forms : TextForms) (a b : String) : namesMatch forms a b = namesMatch forms b a := by
  rw [namesMatch_judged,namesMatch_judged,judged_comm]
  congr 1
  exact decide_eq_decide.mpr eq_comm

-- The view of a name is a function of its duplicate key.
theorem cleanName_view (same : cleanName forms a = cleanName forms b) : nameView forms a = nameView forms b := by
  simp only [nameView,normalizeName,same]
theorem includes_key (solid : Solid word.toList) (filled : word.toList ≠ []) (forms : TextForms) (name : String) :
    includes (cleanName forms name) word = includes (normalizeForDuplicateCheck forms name) word := by
  simp only [includes,normalizeForDuplicateCheck,String.toList_ofList,infix_collapse solid filled]
theorem plain_key (forms : TextForms) (name : String) :
    normalizeName forms name false =
      jsTrim (String.ofList (collapseSpaces false (dropSuffixes 0 (normalizeForDuplicateCheck forms name).toList))) := by
  simp only [normalizeName,normalizeForDuplicateCheck,String.toList_ofList,dropSuffixes_collapse]
  rfl
theorem key_view (same : normalizeForDuplicateCheck forms a = normalizeForDuplicateCheck forms b) :
    nameView forms a = nameView forms b := by
  have words : ∀ word ∈ ["shahri","shahar","tumani","tuman","toshkent","viloyati","viloyat"],
      Solid word.toList ∧ word.toList ≠ [] := by
    have all : ∀ word ∈ ["shahri","shahar","tumani","tuman","toshkent","viloyati","viloyat"],
        (∀ c ∈ word.toList,jsSpace c = false) ∧ word.toList ≠ [] := by simp [jsSpace]
    exact all
  have included : ∀ word ∈ ["shahri","shahar","tumani","tuman","toshkent","viloyati","viloyat"],
      includes (cleanName forms a) word = includes (cleanName forms b) word := by
    intro word mem
    obtain ⟨solid,filled⟩ := words word mem
    rw [includes_key solid filled,includes_key solid filled,same]
  unfold nameView
  rw [plain_key,plain_key,same]
  rw [included _ (by simp),included _ (by simp),included _ (by simp),included _ (by simp),included _ (by simp),included _ (by simp),
    included _ (by simp)]

-- Two names that no third name and no duplicate check tells apart.
def Same (forms : TextForms) (a a' : String) : Prop :=
  (∀ b,namesMatch forms a' b = namesMatch forms a b) ∧
    normalizeForDuplicateCheck forms a' = normalizeForDuplicateCheck forms a
theorem same_refl (forms : TextForms) (a : String) : Same forms a a := ⟨fun _ => rfl,rfl⟩
theorem same_trans (first : Same forms a b) (second : Same forms b c) : Same forms a c :=
  ⟨fun other => (second.1 other).trans (first.1 other),second.2.trans first.2⟩
theorem same_cleaned (same : cleanName forms a' = cleanName forms a) : Same forms a a' := by
  refine ⟨fun b => ?_,?_⟩
  · rw [namesMatch_judged,namesMatch_judged,cleanName_view same,same]
  · simp only [normalizeForDuplicateCheck,same]
-- A name that does not contradict itself is judged by its view alone.
theorem namesMatch_view (sound : (nameView forms a).conflicting = false) (b : String) :
    namesMatch forms a b = judged (nameView forms a) (nameView forms b) := by
  rw [namesMatch_judged]
  by_cases same : cleanName forms a = cleanName forms b
  · rw [← cleanName_view same,judged_self,sound]
    simp
  · simp [same]
theorem same_exact (forms : TextForms) (a a' : String) :
    Same forms a a' ↔ normalizeForDuplicateCheck forms a' = normalizeForDuplicateCheck forms a ∧
      (cleanName forms a' = cleanName forms a ∨ (nameView forms a).conflicting = false) := by
  constructor
  · intro ⟨matching,key⟩
    refine ⟨key,?_⟩
    by_contra neither
    obtain ⟨apart,conflicting⟩ := not_or.mp neither
    have own := matching a'
    rw [namesMatch_same rfl,namesMatch_judged,decide_eq_false (Ne.symm apart),key_view key,judged_self] at own
    rw [Bool.not_eq_false] at conflicting
    rw [conflicting] at own
    cases own
  · intro ⟨key,clean⟩
    rcases clean with same | sound
    · exact same_cleaned same
    · have view := key_view key
      refine ⟨fun b => ?_,key⟩
      rw [namesMatch_view sound,namesMatch_view (by rw [view,sound]),view]

end Elchi.Sato
