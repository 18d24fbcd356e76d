import Mathlib.Logic.Relation
import Elchi.NameViews
namespace Elchi.Sato

def TextForms.lower (forms : TextForms) (text : List Char) : List Char := (forms.toLowerCase (String.ofList text)).toList
def TextForms.normal (forms : TextForms) (text : List Char) : List Char := (forms.normalize (String.ofList text)).toList
def trim (text : List Char) : List Char := (text.dropWhile jsSpace).rdropWhile jsSpace
def straight (c : Char) : Char := if c = '`' then '\'' else c
-- What the cleaning leaves of a normalized text.
def shown (text : List Char) : List Char := (text.filter fun c => !zeroWidth c).map straight
theorem cleanName_chars (forms : TextForms) (name : List Char) :
    (cleanName forms (String.ofList name)).toList = shown (forms.normal (trim (forms.lower name))) := by
  simp only [cleanName,String.toList_ofList]
  rfl
theorem key_chars (forms : TextForms) (name : List Char) :
    (normalizeForDuplicateCheck forms (String.ofList name)).toList =
      collapseSpaces false (shown (forms.normal (trim (forms.lower name)))) := by
  simp only [normalizeForDuplicateCheck,String.toList_ofList,cleanName_chars]

-- The apostrophes of typesetting and the backtick.
def typographic (c : Char) : Bool := c.toNat ∈ [0x2018,0x2019,0x02BB,0x02BC,0x60]
def silent (c : Char) : Bool := zeroWidth c || c = '\'' || typographic c
-- The two lower cases of one Greek letter, inside a word and at its end.
def sigma (c : Char) : Bool := c.toNat ∈ [0x3C3,0x3C2]
def settled (c : Char) : Bool := !jsSpace c && !zeroWidth c && c ≠ '`'

-- What the tables of Unicode say: case passes over silent characters, and only the final sigma looks at its neighbours;
-- silent characters, sigmas and white space neither compose nor move, so that a join changes settled characters alone.
structure TextLaws (forms : TextForms) where
  left : List Char → List Char → List Char
  right : List Char → List Char → List Char
  blank : Char → Char
  parted : ∀ u m v,(∀ c ∈ m,silent c = true) → forms.lower (u ++ m ++ v) = left u v ++ m ++ right u v
  bordered : ∀ front text back,(∀ c ∈ front,jsSpace c = true) → (∀ c ∈ back,jsSpace c = true) →
    forms.lower (front ++ text ++ back) = front ++ forms.lower text ++ back
  cased : ∀ s t,List.Forall₂ (fun c d => forms.lower [c] = forms.lower [d]) s t →
    List.Forall₂ (fun c d => c = d ∨ (sigma c = true ∧ sigma d = true)) (forms.lower s) (forms.lower t)
  empty : forms.normal [] = []
  inert : ∀ x c y,(silent c || sigma c) = true → forms.normal (x ++ c :: y) = forms.normal x ++ c :: forms.normal y
  spaced : ∀ x c y,jsSpace c = true → forms.normal (x ++ c :: y) = forms.normal x ++ blank c :: forms.normal y
  blank_space : ∀ c,jsSpace c = true → jsSpace (blank c) = true
  blank_mark : ∀ c,jsSpace c = true → zeroWidth (blank c) = zeroWidth c
  joined : ∀ x y,∃ p m n q k,
    forms.normal x = p ++ m ∧ forms.normal y = n ++ q ∧ forms.normal (x ++ y) = p ++ k ++ q ∧
    (∀ c ∈ m ++ n ++ k,settled c = true) ∧ (k = [] ↔ m ++ n = [])

-- One typing of a name beside another.
inductive Change where
  | insert (u : List Char) (z : Char) (v : List Char)
  | apostrophe (u : List Char) (q : Char) (v : List Char)
  | recase (name other : List Char)
  | pad (front name back : List Char)
def Change.before : Change → String
  | .insert u _ v => String.ofList (u ++ v)
  | .apostrophe u _ v => String.ofList (u ++ '\'' :: v)
  | .recase name _ => String.ofList name
  | .pad _ name _ => String.ofList name
def Change.after : Change → String
  | .insert u z v => String.ofList (u ++ z :: v)
  | .apostrophe u q v => String.ofList (u ++ q :: v)
  | .recase _ other => String.ofList other
  | .pad front name back => String.ofList (front ++ name ++ back)
def Change.Allowed (forms : TextForms) : Change → Prop
  | .insert _ z _ => zeroWidth z = true
  | .apostrophe _ q _ => typographic q = true
  | .recase name other => List.Forall₂ (fun c d => forms.lower [c] = forms.lower [d]) name other
  | .pad front _ back => (∀ c ∈ front,jsSpace c = true) ∧ ∀ c ∈ back,jsSpace c = true

-- White space that the mark keeps from being trimmed is invisible, or joins white space that the cleaned name shows anyway.
def Kept (forms : TextForms) (name : String) (run : List Char) (edge : Option Char) : Prop :=
  (∀ c ∈ run,zeroWidth c = true) ∨ (edge.any jsSpace = true ∧ (nameView forms name).conflicting = false)
def Change.Harmless (laws : TextLaws forms) : Change → Prop
  | .insert u z v =>
    let name := String.ofList (u ++ v)
    let head := (laws.left u v).dropWhile jsSpace
    let tail := (laws.right u v).rdropWhile jsSpace
    if head = [] then jsSpace z = true ∨ Kept forms name (tail.takeWhile jsSpace) (cleanName forms name).toList.head?
    else if tail = [] then jsSpace z = true ∨ Kept forms name (head.rtakeWhile jsSpace) (cleanName forms name).toList.getLast?
    else forms.normal (head ++ tail) = forms.normal head ++ forms.normal tail
  | .apostrophe _ q _ => q = '`'
  | .recase name other => forms.lower other = forms.lower name
  | .pad _ _ _ => True
instance (forms : TextForms) : (change : Change) → Decidable (change.Allowed forms)
  | .insert _ z _ => inferInstanceAs (Decidable (zeroWidth z = true))
  | .apostrophe _ q _ => inferInstanceAs (Decidable (typographic q = true))
  | .recase name other => inferInstanceAs (Decidable (List.Forall₂ (fun c d => forms.lower [c] = forms.lower [d]) name other))
  | .pad front _ back => inferInstanceAs (Decidable ((∀ c ∈ front,jsSpace c = true) ∧ ∀ c ∈ back,jsSpace c = true))
instance (forms : TextForms) (name : String) (run : List Char) (edge : Option Char) : Decidable (Kept forms name run edge) :=
  inferInstanceAs (Decidable ((∀ c ∈ run,zeroWidth c = true) ∨ (edge.any jsSpace = true ∧ (nameView forms name).conflicting = false)))
instance (laws : TextLaws forms) : (change : Change) → Decidable (change.Harmless laws)
  | .insert u _ v =>
    inferInstanceAs (Decidable (if (laws.left u v).dropWhile jsSpace = [] then _
      else if (laws.right u v).rdropWhile jsSpace = [] then _ else _ = _))
  | .apostrophe _ q _ => inferInstanceAs (Decidable (q = '`'))
  | .recase name other => inferInstanceAs (Decidable (forms.lower other = forms.lower name))
  | .pad _ _ _ => inferInstanceAs (Decidable True)
def Varies (laws : TextLaws forms) (a a' : String) : Prop :=
  ∃ change : Change,change.Allowed forms ∧ change.Harmless laws ∧ change.before = a ∧ change.after = a'

theorem shown_append (s t : List Char) : shown (s ++ t) = shown s ++ shown t := by simp [shown]
theorem shown_mark (mark : zeroWidth z = true) (s t : List Char) : shown (s ++ z :: t) = shown s ++ shown t := by
  simp [shown,mark]
theorem shown_visible (visible : zeroWidth c = false) (s t : List Char) : shown (s ++ c :: t) = shown s ++ straight c :: shown t := by
  simp [shown,visible]
theorem shown_settled (plain : ∀ c ∈ text,settled c = true) : shown text = text := by
  induction text with
  | nil => rfl
  | cons c rest ih =>
    have own := plain c List.mem_cons_self
    have later := ih fun d mem => plain d (List.mem_cons_of_mem c mem)
    simp only [settled,Bool.and_eq_true,Bool.not_eq_true',decide_eq_true_eq] at own
    have kept := shown_visible own.1.2 [] rest
    rw [List.nil_append] at kept
    rw [kept,later]
    simp [shown,straight,own.2]
theorem straight_space (space : jsSpace c = true) : straight c = c := by
  unfold straight
  split
  · rename_i eq
    rw [eq] at space
    cases space
  · rfl
theorem shown_spaces (spaces : ∀ c ∈ run,jsSpace c = true) : ∀ c ∈ shown run,jsSpace c = true := by
  intro c mem
  obtain ⟨d,inside,rfl⟩ := List.mem_map.mp mem
  have space := spaces d (List.mem_filter.mp inside).1
  rwa [straight_space space]
theorem shown_empty (run : List Char) : shown run = [] ↔ ∀ c ∈ run,zeroWidth c = true := by simp [shown]

theorem dropWhile_start (filled : s.dropWhile jsSpace ≠ []) (t : List Char) :
    (s ++ t).dropWhile jsSpace = s.dropWhile jsSpace ++ t := by
  rw [List.dropWhile_append,if_neg (by simpa using filled)]
theorem dropWhile_past (empty : s.dropWhile jsSpace = []) (t : List Char) : (s ++ t).dropWhile jsSpace = t.dropWhile jsSpace := by
  rw [List.dropWhile_append,if_pos (by simpa using empty)]
theorem rdropWhile_start (filled : t.rdropWhile jsSpace ≠ []) (s : List Char) :
    (s ++ t).rdropWhile jsSpace = s ++ t.rdropWhile jsSpace := by
  have reversed : t.reverse.dropWhile jsSpace ≠ [] := by simpa [List.rdropWhile] using filled
  simp only [List.rdropWhile,List.reverse_append]
  rw [dropWhile_start reversed]
  simp
theorem rdropWhile_past (empty : t.rdropWhile jsSpace = []) (s : List Char) : (s ++ t).rdropWhile jsSpace = s.rdropWhile jsSpace := by
  have reversed : t.reverse.dropWhile jsSpace = [] := by simpa [List.rdropWhile] using empty
  simp only [List.rdropWhile,List.reverse_append]
  rw [dropWhile_past reversed]
theorem dropWhile_solid (solid : jsSpace c = false) (s t : List Char) :
    (s ++ c :: t).dropWhile jsSpace = s.dropWhile jsSpace ++ c :: t := by
  by_cases empty : s.dropWhile jsSpace = []
  · rw [dropWhile_past empty,empty]
    simp [solid]
  · exact dropWhile_start empty (c :: t)
theorem rdropWhile_solid (solid : jsSpace c = false) (s t : List Char) :
    (s ++ c :: t).rdropWhile jsSpace = s ++ c :: t.rdropWhile jsSpace := by
  by_cases empty : t.rdropWhile jsSpace = []
  · rw [List.append_cons,rdropWhile_past empty,empty,List.rdropWhile_concat_neg _ _ _ (by simp [solid])]
  · rw [List.append_cons,rdropWhile_start empty]
    simp
theorem trim_solid (solid : jsSpace c = false) (s t : List Char) :
    trim (s ++ c :: t) = s.dropWhile jsSpace ++ c :: t.rdropWhile jsSpace := by
  rw [trim,dropWhile_solid solid,rdropWhile_solid solid]
theorem trim_comm (text : List Char) : (text.rdropWhile jsSpace).dropWhile jsSpace = trim text := by
  by_cases empty : text.dropWhile jsSpace = []
  · have spaces := List.dropWhile_eq_nil_iff.mp empty
    rw [List.rdropWhile_eq_nil_iff.mpr spaces,trim,empty]
    simp
  · obtain ⟨c,mem,solid⟩ : ∃ c ∈ text,jsSpace c = false := by simpa [List.dropWhile_eq_nil_iff] using empty
    obtain ⟨s,t,rfl⟩ := List.append_of_mem mem
    rw [rdropWhile_solid solid,dropWhile_solid solid,trim_solid solid]
theorem trim_past (empty : s.dropWhile jsSpace = []) (t : List Char) : trim (s ++ t) = trim t := by
  rw [trim,dropWhile_past empty,trim]
theorem trim_before (empty : t.rdropWhile jsSpace = []) (s : List Char) : trim (s ++ t) = trim s := by
  rw [← trim_comm,rdropWhile_past empty,trim_comm]
theorem trim_join (head : s.dropWhile jsSpace ≠ []) (tail : t.rdropWhile jsSpace ≠ []) :
    trim (s ++ t) = s.dropWhile jsSpace ++ t.rdropWhile jsSpace := by
  rw [trim,dropWhile_start head,rdropWhile_start tail]
theorem trim_bordered (front : ∀ c ∈ a,jsSpace c = true) (back : ∀ c ∈ b,jsSpace c = true) (text : List Char) :
    trim (a ++ text ++ b) = trim text := by
  rw [trim_before (List.rdropWhile_eq_nil_iff.mpr back),trim_past (List.dropWhile_eq_nil_iff.mpr front)]

theorem TextLaws.normal_front (laws : TextLaws forms) {run : List Char} (spaces : ∀ c ∈ run,jsSpace c = true) (text : List Char) :
    forms.normal (run ++ text) = run.map laws.blank ++ forms.normal text := by
  induction run with
  | nil => rfl
  | cons c rest ih =>
    have first := laws.spaced [] c (rest ++ text) (spaces c List.mem_cons_self)
    rw [laws.empty,List.nil_append,List.nil_append] at first
    rw [List.cons_append,first,ih fun d mem => spaces d (List.mem_cons_of_mem c mem)]
    rfl
theorem TextLaws.normal_back (laws : TextLaws forms) {run : List Char} (spaces : ∀ c ∈ run,jsSpace c = true) (text : List Char) :
    forms.normal (text ++ run) = forms.normal text ++ run.map laws.blank := by
  induction run generalizing text with
  | nil => simp
  | cons c rest ih =>
    have others : ∀ d ∈ rest,jsSpace d = true := fun d mem => spaces d (List.mem_cons_of_mem c mem)
    have alone := laws.normal_front others []
    rw [List.append_nil,laws.empty,List.append_nil] at alone
    rw [laws.spaced text c rest (spaces c List.mem_cons_self),alone]
    rfl
-- What the cleaning shows of a run of white space is white space, and nothing exactly when the run is invisible.
theorem TextLaws.run_spaces (laws : TextLaws forms) {run : List Char} (spaces : ∀ c ∈ run,jsSpace c = true) :
    ∀ c ∈ shown (run.map laws.blank),jsSpace c = true := by
  refine shown_spaces fun c mem => ?_
  obtain ⟨d,inside,rfl⟩ := List.mem_map.mp mem
  exact laws.blank_space d (spaces d inside)
theorem TextLaws.run_empty (laws : TextLaws forms) {run : List Char} (spaces : ∀ c ∈ run,jsSpace c = true) :
    shown (run.map laws.blank) = [] ↔ ∀ c ∈ run,zeroWidth c = true := by
  rw [shown_empty,List.forall_mem_map]
  refine forall₂_congr fun c mem => ?_
  rw [laws.blank_mark c (spaces c mem)]

theorem front_exact (spaces : ∀ c ∈ run,jsSpace c = true) (text : List Char) :
    collapseSpaces false (run ++ text) = collapseSpaces false text ↔ run = [] ∨ text.head?.any jsSpace = true := by
  by_cases empty : run = []
  · simp [empty]
  · rw [collapse_head spaces empty]
    cases text with
    | nil => simp [empty,collapseSpaces]
    | cons c rest =>
      by_cases space : jsSpace c = true
      · simp [collapseSpaces,space]
      · have solid : jsSpace c = false := by simpa using space
        simp [collapse_solid_cons solid,empty,solid]
theorem back_exact (spaces : ∀ c ∈ run,jsSpace c = true) (text : List Char) :
    collapseSpaces false (text ++ run) = collapseSpaces false text ↔ run = [] ∨ text.getLast?.any jsSpace = true := by
  have last : runOpen false text = text.getLast?.any jsSpace := by
    rcases List.eq_nil_or_concat text with rfl | ⟨rest,c,rfl⟩
    · rfl
    · simp [runOpen_last]
  rw [collapse_append,last,List.append_right_eq_self]
  cases edge : text.getLast?.any jsSpace
  · rw [collapse_blanks spaces]
    unfold oneBlank
    split <;> simp_all
  · have inside := collapse_run spaces []
    rw [List.append_nil] at inside
    simp [inside,collapseSpaces]
-- A name whose cleaned text grows by white space at one end.
theorem kept_exact {run : List Char} {edge : Bool} (grown : (cleanName forms a').toList = run ++ (cleanName forms a).toList ∨
      (cleanName forms a').toList = (cleanName forms a).toList ++ run)
    (key : normalizeForDuplicateCheck forms a' = normalizeForDuplicateCheck forms a ↔ run = [] ∨ edge = true) :
    Same forms a a' ↔ run = [] ∨ (edge = true ∧ (nameView forms a).conflicting = false) := by
  have clean : cleanName forms a' = cleanName forms a ↔ run = [] := by
    rw [← String.toList_inj]
    rcases grown with front | back
    · rw [front,List.append_left_eq_self]
    · rw [back,List.append_right_eq_self]
  rw [same_exact,key,clean,← or_and_left]

theorem TextLaws.lower_plain (laws : TextLaws forms) (u v : List Char) : forms.lower (u ++ v) = laws.left u v ++ laws.right u v := by
  have parted := laws.parted u [] v (by simp)
  simpa using parted
theorem TextLaws.lower_silent (laws : TextLaws forms) (quiet : silent c = true) (u v : List Char) :
    forms.lower (u ++ c :: v) = laws.left u v ++ c :: laws.right u v := by
  have parted := laws.parted u [c] v (by simpa using quiet)
  simpa using parted
theorem key_exact (forms : TextForms) (a a' : String) :
    normalizeForDuplicateCheck forms a' = normalizeForDuplicateCheck forms a ↔
      collapseSpaces false (cleanName forms a').toList = collapseSpaces false (cleanName forms a).toList := by
  rw [← String.toList_inj,normalizeForDuplicateCheck,normalizeForDuplicateCheck,String.toList_ofList,String.toList_ofList]
theorem cleaned_same (same : trim (forms.lower other) = trim (forms.lower name)) :
    Same forms (String.ofList name) (String.ofList other) := by
  refine same_cleaned ?_
  rw [← String.toList_inj,cleanName_chars,cleanName_chars,same]

-- A mark in front of the white space that starts a name, which is trimmed without the mark.
theorem insert_front (laws : TextLaws forms) (mark : zeroWidth z = true) (solid : jsSpace z = false) (u v : List Char)
    (head : (laws.left u v).dropWhile jsSpace = []) :
    Same forms (String.ofList (u ++ v)) (String.ofList (u ++ z :: v)) ↔
      Kept forms (String.ofList (u ++ v)) (((laws.right u v).rdropWhile jsSpace).takeWhile jsSpace)
        (cleanName forms (String.ofList (u ++ v))).toList.head? := by
  have quiet : silent z = true := by simp [silent,mark]
  have spaces := takeWhile_spaces ((laws.right u v).rdropWhile jsSpace)
  have parts := List.takeWhile_append_dropWhile (p := jsSpace) (l := (laws.right u v).rdropWhile jsSpace)
  have before := cleanName_chars forms (u ++ v)
  have after := cleanName_chars forms (u ++ z :: v)
  rw [laws.lower_plain,trim_past head,← trim_comm] at before
  rw [laws.lower_silent quiet,trim_solid solid,head,List.nil_append] at after
  generalize (laws.right u v).rdropWhile jsSpace = tail at spaces parts before after ⊢
  have alone := laws.inert [] z tail (by simp [quiet])
  rw [List.nil_append,laws.empty] at alone
  rw [alone,shown_mark mark,← parts,laws.normal_front spaces,shown_append,← before] at after
  rw [Kept,← laws.run_empty spaces]
  have grown := after.trans (List.nil_append _)
  refine kept_exact (.inl grown) ?_
  rw [key_exact,grown,front_exact (laws.run_spaces spaces)]
theorem insert_back (laws : TextLaws forms) (mark : zeroWidth z = true) (solid : jsSpace z = false) (u v : List Char)
    (tail : (laws.right u v).rdropWhile jsSpace = []) :
    Same forms (String.ofList (u ++ v)) (String.ofList (u ++ z :: v)) ↔
      Kept forms (String.ofList (u ++ v)) (((laws.left u v).dropWhile jsSpace).rtakeWhile jsSpace)
        (cleanName forms (String.ofList (u ++ v))).toList.getLast? := by
  have quiet : silent z = true := by simp [silent,mark]
  have spaces : ∀ c ∈ ((laws.left u v).dropWhile jsSpace).rtakeWhile jsSpace,jsSpace c = true := fun c => List.mem_rtakeWhile_imp
  have parts := List.rdropWhile_append_rtakeWhile (p := jsSpace) (l := (laws.left u v).dropWhile jsSpace)
  have before := cleanName_chars forms (u ++ v)
  have after := cleanName_chars forms (u ++ z :: v)
  rw [laws.lower_plain,trim_before tail,trim] at before
  rw [laws.lower_silent quiet,trim_solid solid,tail] at after
  generalize (laws.left u v).dropWhile jsSpace = head at spaces parts before after ⊢
  rw [laws.inert head z [] (by simp [quiet]),shown_mark mark,laws.empty,← parts,laws.normal_back spaces,shown_append,← before] at after
  rw [Kept,← laws.run_empty spaces]
  have grown := after.trans (List.append_nil _)
  refine kept_exact (.inr grown) ?_
  rw [key_exact,grown,back_exact (laws.run_spaces spaces)]
-- Two normal forms with one reading are one normal form.
theorem joined_exact (laws : TextLaws forms) (x y : List Char)
    (same : collapseSpaces false (shown (forms.normal x ++ forms.normal y)) = collapseSpaces false (shown (forms.normal (x ++ y)))) :
    forms.normal (x ++ y) = forms.normal x ++ forms.normal y := by
  obtain ⟨p,m,n,q,k,first,second,joint,plain,empty⟩ := laws.joined x y
  rw [first,second,joint] at same ⊢
  by_cases none : k = []
  · obtain ⟨rfl,rfl⟩ := List.append_eq_nil_iff.mp (empty.mp none)
    simp [none]
  · have filled : m ++ n ≠ [] := fun eq => none (empty.mpr eq)
    have old : ∀ c ∈ m ++ n,settled c = true := fun c mem => plain c (List.mem_append_left k mem)
    have new : ∀ c ∈ k,settled c = true := fun c mem => plain c (List.mem_append_right (m ++ n) mem)
    have solid : ∀ text,(∀ c ∈ text,settled c = true) → Solid text := by
      intro text all c mem
      have own := all c mem
      simp only [settled,Bool.and_eq_true,Bool.not_eq_true'] at own
      exact own.1.1
    have regroup : p ++ m ++ (n ++ q) = p ++ ((m ++ n) ++ q) := by simp
    rw [regroup,List.append_assoc p k q] at same ⊢
    simp only [shown_append p,shown_append (m ++ n),shown_append k,shown_settled old,shown_settled new] at same
    rw [collapse_append false (shown p),collapse_append false (shown p)] at same
    rw [collapse_solid (solid _ old) filled,collapse_solid (solid _ new) none] at same
    have cores := List.append_cancel_left same
    rw [List.append_cancel_right cores]

theorem insert_exact (laws : TextLaws forms) (mark : zeroWidth z = true) (u v : List Char) :
    Same forms (String.ofList (u ++ v)) (String.ofList (u ++ z :: v)) ↔ (Change.insert u z v).Harmless laws := by
  have quiet : silent z = true := by simp [silent,mark]
  have before := laws.lower_plain u v
  have after := laws.lower_silent quiet u v
  unfold Change.Harmless
  dsimp only
  split
  case isTrue head =>
    by_cases space : jsSpace z = true
    · refine iff_of_true (cleaned_same ?_) (.inl space)
      have past : (laws.left u v ++ [z]).dropWhile jsSpace = [] := by
        rw [dropWhile_past head]
        simp [space]
      rw [before,after,List.append_cons,trim_past past,trim_past head]
    · have solid : jsSpace z = false := by simpa using space
      rw [insert_front laws mark solid u v head]
      simp [solid]
  case isFalse head =>
    split
    case isTrue tail =>
      by_cases space : jsSpace z = true
      · refine iff_of_true (cleaned_same ?_) (.inl space)
        have past : (z :: laws.right u v).rdropWhile jsSpace = [] := by
          refine List.rdropWhile_eq_nil_iff.mpr fun c mem => ?_
          rcases List.mem_cons.mp mem with rfl | later
          · exact space
          · exact List.rdropWhile_eq_nil_iff.mp tail c later
        rw [before,after,trim_before past,trim_before tail]
      · have solid : jsSpace z = false := by simpa using space
        rw [insert_back laws mark solid u v tail]
        simp [solid]
    case isFalse tail =>
      have old := cleanName_chars forms (u ++ v)
      have new := cleanName_chars forms (u ++ z :: v)
      have start : (laws.left u v ++ [z]).dropWhile jsSpace = (laws.left u v).dropWhile jsSpace ++ [z] := dropWhile_start head [z]
      have started : (laws.left u v ++ [z]).dropWhile jsSpace ≠ [] := by simp [start]
      have joint : trim (laws.left u v ++ z :: laws.right u v) =
          (laws.left u v).dropWhile jsSpace ++ z :: (laws.right u v).rdropWhile jsSpace := by
        rw [List.append_cons,trim_join started tail,start,← List.append_cons]
      rw [before,trim_join head tail] at old
      rw [after,joint,laws.inert _ z _ (by simp [quiet])] at new
      rw [shown_mark mark,← shown_append] at new
      constructor
      · intro same
        have key := (key_exact forms _ _).mp same.2
        rw [old,new] at key
        exact joined_exact laws _ _ key
      · intro harmless
        refine same_cleaned ?_
        rw [← String.toList_inj,old,new,harmless]

-- The key of a name around a character that no join touches.
theorem key_around (laws : TextLaws forms) (still : (silent c || sigma c) = true) (solid : jsSpace c = false)
    (visible : zeroWidth c = false) (lowered : forms.lower name = s ++ c :: t) :
    (normalizeForDuplicateCheck forms (String.ofList name)).toList =
      collapseSpaces false (shown (forms.normal (s.dropWhile jsSpace))) ++
        straight c :: collapseSpaces false (shown (forms.normal (t.rdropWhile jsSpace))) := by
  have solid' : jsSpace (straight c) = false := by
    unfold straight
    split
    · rfl
    · exact solid
  rw [key_chars,lowered,trim_solid solid,laws.inert _ c _ still,shown_visible visible,collapse_split solid']
theorem typographic_facts (shape : typographic c = true) : silent c = true ∧ jsSpace c = false ∧ zeroWidth c = false := by
  have codes : c.toNat ∈ [0x2018,0x2019,0x02BB,0x02BC,0x60] := by simpa [typographic] using shape
  have outside : ∀ n ∈ [0x2018,0x2019,0x02BB,0x02BC,0x60],
      n ∉ [9,10,11,12,13,32,160,5760,8192,8193,8194,8195,8196,8197,8198,8199,8200,8201,8202,8232,8233,8239,8287,12288,65279] ∧
      n ∉ [0x200B,0x200C,0x200D,0xFEFF] := by decide
  refine ⟨by simp [silent,shape],?_,?_⟩
  · simpa [jsSpace] using (outside _ codes).1
  · simpa [zeroWidth] using (outside _ codes).2
theorem sigma_facts (greek : sigma c = true) : jsSpace c = false ∧ zeroWidth c = false ∧ straight c = c := by
  have codes : c.toNat ∈ [0x3C3,0x3C2] := by simpa [sigma] using greek
  have outside : ∀ n ∈ [0x3C3,0x3C2],
      n ∉ [9,10,11,12,13,32,160,5760,8192,8193,8194,8195,8196,8197,8198,8199,8200,8201,8202,8232,8233,8239,8287,12288,65279] ∧
      n ∉ [0x200B,0x200C,0x200D,0xFEFF] ∧ n ≠ 0x60 := by decide
  refine ⟨by simpa [jsSpace] using (outside _ codes).1,by simpa [zeroWidth] using (outside _ codes).2.1,?_⟩
  unfold straight
  split
  · rename_i eq
    rw [eq] at codes
    exact absurd rfl (outside _ codes).2.2
  · rfl
-- Only the backtick of the typographic apostrophes is written straight.
theorem apostrophe_exact (laws : TextLaws forms) (shape : typographic q = true) (u v : List Char) :
    Same forms (String.ofList (u ++ '\'' :: v)) (String.ofList (u ++ q :: v)) ↔ q = '`' := by
  obtain ⟨quiet,solid,visible⟩ := typographic_facts shape
  have plain : silent '\'' = true := by decide
  have before := laws.lower_silent plain u v
  have after := laws.lower_silent quiet u v
  constructor
  · intro same
    have old := key_around laws (by simp [plain]) (by decide) (by decide) before
    have new := key_around laws (by simp [quiet]) solid visible after
    rw [same.2,old] at new
    have written := (List.cons.inj (List.append_cancel_left new)).1
    by_contra other
    simp only [straight,if_neg other] at written
    rw [← written] at shape
    revert shape
    decide
  · rintro rfl
    refine same_cleaned ?_
    rw [← String.toList_inj,cleanName_chars,cleanName_chars,before,after,trim_solid solid,trim_solid (by decide)]
    rw [laws.inert _ _ _ (by simp [quiet]),laws.inert _ _ _ (by simp [plain]),shown_visible visible,shown_visible (by decide)]
    rfl
theorem first_difference {p : Char → Prop} (alike : List.Forall₂ (fun c d => c = d ∨ (p c ∧ p d)) s t) (differ : s ≠ t) :
    ∃ start c d rest others,s = start ++ c :: rest ∧ t = start ++ d :: others ∧ c ≠ d ∧ p c ∧ p d := by
  induction alike with
  | nil => exact absurd rfl differ
  | @cons c d rest others pair _ ih =>
    by_cases same : c = d
    · subst same
      obtain ⟨start,c',d',rest',others',rfl,rfl,apart,both⟩ := ih fun eq => differ (by rw [eq])
      exact ⟨c :: start,c',d',rest',others',rfl,rfl,apart,both⟩
    · exact ⟨[],c,d,rest,others,rfl,rfl,same,pair.resolve_left same⟩
theorem recase_exact (laws : TextLaws forms) (allowed : (Change.recase name other).Allowed forms) :
    Same forms (String.ofList name) (String.ofList other) ↔ forms.lower other = forms.lower name := by
  constructor
  · intro same
    by_contra differ
    obtain ⟨start,c,d,rest,others,before,after,apart,greek,greek'⟩ := first_difference (laws.cased name other allowed) (Ne.symm differ)
    obtain ⟨solid,visible,straightened⟩ := sigma_facts greek
    obtain ⟨solid',visible',straightened'⟩ := sigma_facts greek'
    have old := key_around laws (by simp [greek]) solid visible before
    have new := key_around laws (by simp [greek']) solid' visible' after
    rw [same.2,old] at new
    have written := (List.cons.inj (List.append_cancel_left new)).1
    rw [straightened,straightened'] at written
    exact apart written
  · intro lowered
    exact cleaned_same (by rw [lowered])
theorem change_exact (laws : TextLaws forms) (change : Change) (allowed : change.Allowed forms) :
    Same forms change.before change.after ↔ change.Harmless laws := by
  cases change with
  | insert u z v => exact insert_exact laws allowed u v
  | apostrophe u q v => exact apostrophe_exact laws allowed u v
  | recase name other => exact recase_exact laws allowed
  | pad front name back =>
    refine iff_of_true (cleaned_same ?_) trivial
    rw [laws.bordered front name back allowed.1 allowed.2,trim_bordered allowed.1 allowed.2]
theorem varies_same (laws : TextLaws forms) (path : Relation.ReflTransGen (Varies laws) a a') : Same forms a a' := by
  induction path with
  | refl => exact same_refl forms a
  | tail _ step ih =>
    obtain ⟨change,allowed,harmless,rfl,rfl⟩ := step
    exact same_trans ih ((change_exact laws change allowed).mpr harmless)

-- The chains of changes that are all harmless, and for one change exactly when it is.
theorem variations_exact (laws : TextLaws forms) :
    (∀ a b,namesMatch forms a b = namesMatch forms b a) ∧
    (∀ change : Change,change.Allowed forms → (Same forms change.before change.after ↔ change.Harmless laws)) ∧
    ∀ a a',Relation.ReflTransGen (Varies laws) a a' → Same forms a a' :=
  ⟨namesMatch_comm forms,change_exact laws,fun _ _ => varies_same laws⟩

theorem lower_silent_plain {c : Char} (quiet : silent c = true) : c.toLower = c := by
  have apart : ∀ n ∈ [0x200B,0x200C,0x200D,0xFEFF,0x27,0x2018,0x2019,0x02BB,0x02BC,0x60],n < 65 ∨ 90 < n := by decide
  refine lower_outside (apart c.toNat ?_)
  simp only [silent,zeroWidth,typographic,Bool.or_eq_true,decide_eq_true_eq] at quiet
  rcases quiet with (mark | rfl) | shape
  · simp only [List.mem_cons,List.not_mem_nil,or_false] at mark ⊢
    omega
  · decide
  · simp only [List.mem_cons,List.not_mem_nil,or_false] at shape ⊢
    omega
theorem plain_lower (text : List Char) : plainForms.lower text = text.map Char.toLower := by
  simp [TextForms.lower,plainForms]
theorem plain_normal (text : List Char) : plainForms.normal text = text := by simp [TextForms.normal,plainForms]
theorem lower_fixed {text : List Char} (fixed : ∀ c ∈ text,Char.toLower c = c) : text.map Char.toLower = text :=
  (List.map_congr_left fixed).trans (List.map_id text)
def plainLaws : TextLaws plainForms where
  left u _ := u.map Char.toLower
  right _ v := v.map Char.toLower
  blank := id
  parted u m v quiet := by
    rw [plain_lower,List.map_append,List.map_append,lower_fixed fun c mem => lower_silent_plain (quiet c mem)]
  bordered front text back before after := by
    rw [plain_lower,plain_lower,List.map_append,List.map_append]
    rw [lower_fixed fun c mem => lower_space (before c mem),lower_fixed fun c mem => lower_space (after c mem)]
  cased s t pairs := by
    rw [plain_lower,plain_lower,List.forall₂_map_left_iff,List.forall₂_map_right_iff]
    refine pairs.imp fun c d same => ?_
    rw [plain_lower,plain_lower] at same
    exact .inl (List.cons.inj same).1
  empty := plain_normal []
  inert x c y _ := by rw [plain_normal,plain_normal,plain_normal]
  spaced x c y _ := by
    rw [plain_normal,plain_normal,plain_normal]
    rfl
  blank_space _ space := space
  blank_mark _ _ := rfl
  joined x y := ⟨x,[],[],y,[],by simp [plain_normal],by simp [plain_normal],by simp [plain_normal],by simp,by simp⟩

-- A name typed with a backtick, in capitals and with a mark inside.
theorem variations_spelled : Same plainForms "Farg'ona" "FARG`O\u200BNA" := by
  have backtick : Varies plainLaws "Farg'ona" "Farg`ona" :=
    ⟨.apostrophe "Farg".toList '`' "ona".toList,by decide,rfl,by decide,by decide⟩
  have capitals : Varies plainLaws "Farg`ona" "FARG`ONA" :=
    ⟨.recase "Farg`ona".toList "FARG`ONA".toList,by decide,by decide,by decide,by decide⟩
  have mark : Varies plainLaws "FARG`ONA" "FARG`O\u200BNA" :=
    ⟨.insert "FARG`O".toList '\u200B' "NA".toList,by decide,by decide,by decide,by decide⟩
  exact (variations_exact plainLaws).2.2 _ _ (.tail (.tail (.single backtick) capitals) mark)
-- The same name with the apostrophe of typesetting, U+2019.
theorem apostrophe_told_apart :
    (Change.apostrophe "Farg".toList '\u2019' "ona viloyati".toList).Allowed plainForms ∧
    namesMatch plainForms "Farg'ona viloyati" "Farg'ona" = true ∧ namesMatch plainForms "Farg\u2019ona viloyati" "Farg'ona" = false ∧
    normalizeForDuplicateCheck plainForms "Farg\u2019ona viloyati" ≠ normalizeForDuplicateCheck plainForms "Farg'ona viloyati" :=
  ⟨by decide,by decide +kernel,by decide +kernel,by decide +kernel⟩

end Elchi.Sato
