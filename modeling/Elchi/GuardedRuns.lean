import Mathlib.Data.List.Basic
namespace Elchi.Runs
variable {S A : Type} {step : S → A → S} {cond : S → A → Prop} {s : S}

def runFrom (step : S → A → S) (s : S) (actions : List A) : S := actions.foldl step s

-- Every action of a run meets a condition at the state it starts from.
def Meets (step : S → A → S) (cond : S → A → Prop) : S → List A → Prop
  | _,[] => True
  | s,action :: rest => cond s action ∧ Meets step cond (step s action) rest

instance decideMeets [∀ s a,Decidable (cond s a)] : (s : S) → (actions : List A) → Decidable (Meets step cond s actions)
  | _,[] => .isTrue trivial
  | s,action :: rest =>
    have := decideMeets (step s action) rest
    inferInstanceAs (Decidable (_ ∧ _))

theorem runFrom_append (front rest : List A) : runFrom step s (front ++ rest) = runFrom step (runFrom step s front) rest :=
  List.foldl_append
theorem meets_cons {action : A} {rest : List A} : Meets step cond s (action :: rest) ↔ cond s action ∧ Meets step cond (step s action) rest :=
  Iff.rfl
theorem meets_append {front rest : List A} :
    Meets step cond s (front ++ rest) ↔ Meets step cond s front ∧ Meets step cond (runFrom step s front) rest := by
  induction front generalizing s with
  | nil => exact (and_iff_right trivial).symm
  | cons action front ih => rw [List.cons_append,meets_cons,meets_cons,ih,and_assoc]; rfl
theorem meets_and {other : S → A → Prop} {actions : List A} (first : Meets step cond s actions) (second : Meets step other s actions) :
    Meets step (fun s a => cond s a ∧ other s a) s actions := by
  induction actions generalizing s with
  | nil => trivial
  | cons action rest ih => exact ⟨⟨first.1,second.1⟩,ih first.2 second.2⟩
theorem meets_mem {P : A → Prop} {actions : List A} (each : ∀ action ∈ actions,P action) : Meets step (fun _ a => P a) s actions := by
  induction actions generalizing s with
  | nil => trivial
  | cons action rest ih => exact ⟨each action List.mem_cons_self,ih fun other member => each other (.tail _ member)⟩

-- A run meets a condition when every action does at the state it is taken in.
theorem meets_reached {actions : List A} : Meets step cond s actions ↔
    ∀ front action,front ++ [action] <+: actions → cond (runFrom step s front) action := by
  induction actions generalizing s with
  | nil =>
    refine ⟨fun _ front action reached => ?_,fun _ => trivial⟩
    have short := reached.length_le
    simp at short
  | cons first rest ih =>
    rw [meets_cons,ih]
    constructor
    · rintro ⟨here,later⟩ front action reached
      cases front with
      | nil =>
        obtain ⟨rfl,-⟩ := List.cons_prefix_cons.mp reached
        exact here
      | cons other front =>
        obtain ⟨rfl,inside⟩ := List.cons_prefix_cons.mp reached
        exact later front action inside
    · intro each
      refine ⟨each [] first (by simp),fun front action reached => each (first :: front) action ?_⟩
      exact List.cons_prefix_cons.mpr ⟨rfl,reached⟩
-- Two conditions that agree wherever an invariant holds are met by the same runs.
theorem meets_congr {P : S → Prop} {other : S → A → Prop} (keeps : ∀ s action,P s → P (step s action))
    (agree : ∀ s action,P s → (cond s action ↔ other s action)) {actions : List A} (holds : P s) :
    Meets step cond s actions ↔ Meets step other s actions := by
  induction actions generalizing s with
  | nil => exact Iff.rfl
  | cons action rest ih => exact and_congr (agree s action holds) (ih (keeps s action holds))

-- What a step keeps under the condition, every state of a run that meets it has.
theorem run_keeps {P : S → Prop} (keeps : ∀ s action,P s → cond s action → P (step s action)) {actions : List A} (holds : P s)
    (meets : Meets step cond s actions) : P (runFrom step s actions) := by
  induction actions generalizing s with
  | nil => exact holds
  | cons action rest ih => exact ih (keeps s action holds meets.1) meets.2
theorem run_keeps_reached {P : S → Prop} (keeps : ∀ s action,P s → cond s action → P (step s action)) {actions front : List A}
    (holds : P s) (meets : Meets step cond s actions) (reached : front <+: actions) : P (runFrom step s front) := by
  obtain ⟨rest,rfl⟩ := reached
  exact run_keeps keeps holds (meets_append.mp meets).1
-- And what one state has and steps keep, every later state has too.
theorem run_keeps_later {P Q : S → Prop} (keeps : ∀ s action,P s → cond s action → P (step s action))
    (stays : ∀ s action,P s → cond s action → Q s → Q (step s action)) {front rest : List A} (holds : P s)
    (meets : Meets step cond s (front ++ rest)) (here : Q (runFrom step s front)) : Q (runFrom step s (front ++ rest)) := by
  obtain ⟨before,after⟩ := meets_append.mp meets
  rw [runFrom_append]
  have both : P (runFrom step s front) ∧ Q (runFrom step s front) := ⟨run_keeps keeps holds before,here⟩
  exact (run_keeps (P:=fun s => P s ∧ Q s) (fun s action held met => ⟨keeps s action held.1 met,stays s action held.1 met held.2⟩)
    both after).2
-- A condition that keeps an invariant, and without which what it gives is lost at once, is met by
-- exactly the runs that have it in every state.
theorem meets_exactly {P Q : S → Prop} (keeps : ∀ s action,P s → cond s action → P (step s action)) (gives : ∀ s,P s → Q s)
    (breaks : ∀ s action,P s → ¬ cond s action → ¬ Q (step s action)) {actions : List A} (holds : P s) :
    Meets step cond s actions ↔ ∀ front,front <+: actions → Q (runFrom step s front) := by
  refine ⟨fun meets front reached => gives _ (run_keeps_reached keeps holds meets reached),fun all => ?_⟩
  induction actions generalizing s with
  | nil => trivial
  | cons action rest ih =>
    have met : cond s action := by
      by_contra unmet
      exact breaks s action holds unmet (all [action] ⟨rest,rfl⟩)
    exact ⟨met,ih (keeps s action holds met) fun front reached => all (action :: front) (List.cons_prefix_cons.mpr ⟨rfl,reached⟩)⟩

end Elchi.Runs
