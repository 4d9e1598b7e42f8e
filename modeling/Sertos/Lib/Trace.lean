import Mathlib.Data.List.Basic

/-!
# Traces of a labelled transition relation

`Trace R s as t` says that the labels `as`, taken in order, lead from `s` to `t` through the
transition relation `R`.  The relation is arbitrary: a guarded function, a partial one and a
nondeterministic choice are all relations of this kind.

Four rules are used by everything that quantifies over whole runs:

* `Trace.invariant` — what holds at the start and survives one step holds at the end;
* `Trace.exists_step` — what is lost on a run is lost in one of its steps;
* `Trace.allSteps_iff` — when the steps that meet a condition keep an invariant, and under the
  invariant a step has a property *exactly* if it meets the condition, then all steps of a run have
  the property exactly if they all meet the condition;
* `Trace.allStates_iff` — the same for a property of states.
-/

set_option autoImplicit false

namespace Lts

variable {σ α : Type*}

/-- The labels `as`, in order, lead from the first state to the second. -/
inductive Trace (R : σ → α → σ → Prop) : σ → List α → σ → Prop
  | nil (s : σ) : Trace R s [] s
  | cons {s t u : σ} {a : α} {as : List α} (h : R s a t) (hs : Trace R t as u) :
      Trace R s (a :: as) u

namespace Trace

variable {R S : σ → α → σ → Prop} {s t u : σ} {a : α} {as bs : List α}

theorem single (h : R s a t) : Trace R s [a] t := .cons h (.nil t)

@[simp] theorem nil_iff : Trace R s [] t ↔ s = t := by
  constructor
  · intro h; cases h; rfl
  · rintro rfl; exact .nil s

@[simp] theorem cons_iff : Trace R s (a :: as) u ↔ ∃ t, R s a t ∧ Trace R t as u := by
  constructor
  · intro h
    cases h with
    | cons h hs => exact ⟨_, h, hs⟩
  · rintro ⟨t, h, hs⟩
    exact .cons h hs

theorem append (h : Trace R s as t) (h' : Trace R t bs u) : Trace R s (as ++ bs) u := by
  induction h with
  | nil _ => exact h'
  | cons hstep _ ih => exact .cons hstep (ih h')

theorem append_iff : Trace R s (as ++ bs) u ↔ ∃ t, Trace R s as t ∧ Trace R t bs u := by
  constructor
  · intro h
    induction as generalizing s with
    | nil => exact ⟨s, .nil s, h⟩
    | cons a as ih =>
      obtain ⟨x, hx, h⟩ := cons_iff.1 h
      obtain ⟨t, h1, h2⟩ := ih h
      exact ⟨t, .cons hx h1, h2⟩
  · rintro ⟨t, h1, h2⟩
    exact h1.append h2

/-- **The invariant rule.** -/
theorem invariant {I : σ → Prop} (hstep : ∀ s a t, I s → R s a t → I t)
    (h : Trace R s as t) (hs : I s) : I t := by
  induction h with
  | nil _ => exact hs
  | cons hR _ ih => exact ih (hstep _ _ _ hs hR)

/-- A property that is lost on a run is lost in one of its steps. -/
theorem exists_step {P : σ → Prop} (h : Trace R s as u) (hs : P s) (hu : ¬ P u) :
    ∃ bs a cs t v, as = bs ++ a :: cs ∧ Trace R s bs t ∧ R t a v ∧ Trace R v cs u ∧ P t ∧
      ¬ P v := by
  induction h with
  | nil _ => exact absurd hs hu
  | @cons s t u a as hR h ih =>
    by_cases ht : P t
    · obtain ⟨bs, b, cs, v, w, hsplit, h1, hRv, h2, hv, hw⟩ := ih ht hu
      exact ⟨a :: bs, b, cs, v, w, by simp [hsplit], .cons hR h1, hRv, h2, hv, hw⟩
    · exact ⟨[], a, as, s, t, rfl, .nil s, hR, h, hs, ht⟩

/-- `D` holds of every step of the run `as` from `s` to `u`: of the state the step starts from,
its label, and the state it leads to. -/
def AllSteps (R : σ → α → σ → Prop) (D : σ → α → σ → Prop) (s : σ) (as : List α) (u : σ) : Prop :=
  ∀ bs a cs t v, as = bs ++ a :: cs → Trace R s bs t → R t a v → Trace R v cs u → D t a v

/-- `P` holds in every state the run `as` from `s` to `u` passes through, both ends included. -/
def AllStates (R : σ → α → σ → Prop) (P : σ → Prop) (s : σ) (as : List α) (u : σ) : Prop :=
  ∀ bs cs t, as = bs ++ cs → Trace R s bs t → Trace R t cs u → P t

variable {I P : σ → Prop} {C D : σ → α → σ → Prop}

/-- An invariant that survives the steps with property `D` holds throughout a run of such
steps. -/
theorem AllSteps.invariant (hstep : ∀ s a t, I s → R s a t → D s a t → I t)
    (h : AllSteps R D s as u) (hs : I s) : AllStates R I s as u := by
  intro bs cs t hsplit h1 h2
  induction h1 generalizing as with
  | nil _ => exact hs
  | @cons s t v a ds hR h1 ih =>
    subst hsplit
    have hD : D s a t := h [] a (ds ++ cs) s t rfl (.nil s) hR (h1.append h2)
    refine ih ?_ (hstep s a t hs hR hD) rfl h2
    intro bs' a' cs' t' v' hsplit' h1' hR' h2'
    exact h (a :: bs') a' cs' t' v' (by simp [hsplit']) (.cons hR h1') hR' h2'

theorem AllSteps.imp (hstep : ∀ s a t, I s → R s a t → D s a t → I t ∧ C s a t)
    (h : AllSteps R D s as u) (hs : I s) : AllSteps R C s as u := by
  have hI := h.invariant (fun s a t hs hR hD => (hstep s a t hs hR hD).1) hs
  intro bs a cs t v hsplit h1 hR h2
  have hIt : I t := hI bs (a :: cs) t hsplit h1 (.cons hR h2)
  exact (hstep t a v hIt hR (h bs a cs t v hsplit h1 hR h2)).2

theorem AllSteps.and (hC : AllSteps R C s as u) (hD : AllSteps R D s as u) :
    AllSteps R (fun s a t => C s a t ∧ D s a t) s as u :=
  fun bs a cs t v hsplit h1 hR h2 =>
    ⟨hC bs a cs t v hsplit h1 hR h2, hD bs a cs t v hsplit h1 hR h2⟩

theorem AllSteps.mono (h : AllSteps R C s as u) (hCD : ∀ s a t, C s a t → D s a t) :
    AllSteps R D s as u :=
  fun bs a cs t v hsplit h1 hR h2 => hCD t a v (h bs a cs t v hsplit h1 hR h2)

/-- **Exactness over the steps of a run.** -/
theorem allSteps_iff (hstep : ∀ s a t, I s → R s a t → C s a t → I t)
    (hiff : ∀ s a t, I s → R s a t → (D s a t ↔ C s a t)) (hs : I s) :
    AllSteps R D s as u ↔ AllSteps R C s as u := by
  constructor
  · refine fun h => h.imp (fun s a t hI hR hD => ?_) hs
    have hC := (hiff s a t hI hR).1 hD
    exact ⟨hstep s a t hI hR hC, hC⟩
  · exact fun h => h.imp (fun s a t hI hR hC => ⟨hstep s a t hI hR hC, (hiff s a t hI hR).2 hC⟩) hs

theorem AllStates.of_append (h : AllStates R P s (as ++ bs) u) (h' : Trace R t bs u) :
    AllStates R P s as t := by
  intro cs ds v hsplit h1 h2
  exact h cs (ds ++ bs) v (by simp [hsplit]) h1 (h2.append h')

theorem allStates_iff_allSteps (hs : P s) :
    AllStates R P s as u ↔ AllSteps R (fun _ _ t => P t) s as u := by
  constructor
  · intro h bs a cs t v hsplit h1 hR h2
    exact h (bs ++ [a]) cs v (by simp [hsplit]) (h1.append (.single hR)) h2
  · intro h bs cs t hsplit h1 h2
    rcases List.eq_nil_or_concat bs with rfl | ⟨ds, a, rfl⟩
    · rw [← nil_iff.1 h1]; exact hs
    · obtain ⟨v, h3, h4⟩ := append_iff.1 (List.concat_eq_append ▸ h1)
      obtain ⟨w, hR, hw⟩ := cons_iff.1 h4
      obtain rfl := nil_iff.1 hw
      exact h ds a cs v w (by simp [hsplit]) h3 hR h2

/-- **Exactness over the states of a run.**  `I` is the invariant of the runs whose steps meet
`C`, and `P` the property, which may say less. -/
theorem allStates_iff (hIP : ∀ s, I s → P s) (hstep : ∀ s a t, I s → R s a t → C s a t → I t)
    (hexact : ∀ s a t, I s → R s a t → P t → C s a t) (hs : I s) :
    AllStates R P s as u ↔ AllSteps R C s as u := by
  rw [allStates_iff_allSteps (hIP s hs)]
  refine allSteps_iff hstep (fun s a t hI hR => ⟨hexact s a t hI hR, fun hC => ?_⟩) hs
  exact hIP t (hstep s a t hI hR hC)

end Trace

/-! ## Guarded functions -/

section Guarded

variable {G : σ → α → Prop} {f : σ → α → σ} {s t u : σ} {a : α} {as : List α}

/-- The relation of a deterministic step that is taken only where its guard holds. -/
def Guarded (G : σ → α → Prop) (f : σ → α → σ) : σ → α → σ → Prop :=
  fun s a t => G s a ∧ t = f s a

/-- Every guard along the run of `as` from `s` holds. -/
def Guards (G : σ → α → Prop) (f : σ → α → σ) : σ → List α → Prop
  | _, [] => True
  | s, a :: as => G s a ∧ Guards G f (f s a) as

instance decidableGuards [∀ s a, Decidable (G s a)] :
    ∀ (s : σ) (as : List α), Decidable (Guards G f s as)
  | _, [] => .isTrue trivial
  | s, a :: as => @instDecidableAnd _ _ _ (decidableGuards (f s a) as)

/-- A run of a guarded function can be computed. -/
theorem Trace.of_guards (h : Guards G f s as) : Trace (Guarded G f) s as (as.foldl f s) := by
  induction as generalizing s with
  | nil => exact .nil s
  | cons a as ih => exact .cons ⟨h.1, rfl⟩ (ih h.2)

theorem Trace.eq_foldl (h : Trace (Guarded G f) s as t) : t = as.foldl f s := by
  induction h with
  | nil _ => rfl
  | cons hR _ ih => rw [ih, hR.2, List.foldl_cons]

/-- The states a computed run passes through are the ones its initial segments lead to. -/
theorem Trace.eq_foldl_take {bs cs : List α} (h : Trace (Guarded G f) s bs t)
    (hsplit : as = bs ++ cs) :
    t = (as.take bs.length).foldl f s := by
  rw [hsplit, List.take_left, h.eq_foldl]

theorem Guards.of_append {C : σ → α → Prop} {bs cs : List α} (h : Guards C f s (bs ++ a :: cs)) :
    C (bs.foldl f s) a := by
  induction bs generalizing s with
  | nil => exact h.1
  | cons b bs ih => exact ih h.2

/-- Whether the steps of a computed run meet a condition can be computed. -/
theorem Trace.allSteps_of_guards {C : σ → α → Prop} (h : Guards C f s as) :
    AllSteps (Guarded G f) (fun s a _ => C s a) s as u := by
  intro bs a cs t v hsplit h1 _ _
  rw [h1.eq_foldl]
  exact (hsplit ▸ h).of_append

/-- What the steps of a run put out, in order. -/
def outputs {β : Type*} (f : σ → α → σ) (out : σ → α → β) : σ → List α → List β
  | _, [] => []
  | s, a :: as => out s a :: outputs f out (f s a) as

/-- **Forward simulation** through a relation between the states: if every step of the guarded
function is matched by a step of `S` with the label it puts out, then so is every run. -/
theorem Trace.exists_simulation {ρ β : Type*} {S : ρ → β → ρ → Prop} {A : σ → ρ → Prop}
    {o : σ → α → β} (hstep : ∀ s a r, A s r → G s a → ∃ r', A (f s a) r' ∧ S r (o s a) r')
    (h : Trace (Guarded G f) s as t) {r : ρ} (hs : A s r) :
    ∃ r', A t r' ∧ Trace S r (outputs f o s as) r' := by
  induction h generalizing r with
  | nil s => exact ⟨r, hs, .nil r⟩
  | @cons s u t a as hR _ ih =>
    obtain ⟨ha, rfl⟩ := hR
    obtain ⟨r', hA, hS⟩ := hstep s a r hs ha
    obtain ⟨r'', hA', htrace⟩ := ih hA
    exact ⟨r'', hA', .cons hS htrace⟩

/-- Forward simulation through a function of the states. -/
theorem Trace.simulation {ρ β : Type*} {S : ρ → β → ρ → Prop} {I : σ → Prop} {p : σ → ρ}
    {o : σ → α → β} (hstep : ∀ s a, I s → G s a → I (f s a) ∧ S (p s) (o s a) (p (f s a)))
    (h : Trace (Guarded G f) s as t) (hs : I s) :
    I t ∧ Trace S (p s) (outputs f o s as) (p t) := by
  obtain ⟨r, ⟨hI, rfl⟩, htrace⟩ := h.exists_simulation (A := fun s r => I s ∧ p s = r) (S := S)
    (o := o) (fun s a r hA ha => by
      obtain ⟨hI, rfl⟩ := hA
      obtain ⟨hI', hS⟩ := hstep s a hI ha
      exact ⟨p (f s a), ⟨hI', rfl⟩, hS⟩) ⟨hs, rfl⟩
  exact ⟨hI, htrace⟩

/-- Forward simulation through a function of the states, where a step is matched by a run. -/
theorem Trace.simulation_flatten {ρ β : Type*} {S : ρ → β → ρ → Prop} {I : σ → Prop} {p : σ → ρ}
    {o : σ → α → List β}
    (hstep : ∀ s a, I s → G s a → I (f s a) ∧ Trace S (p s) (o s a) (p (f s a)))
    (h : Trace (Guarded G f) s as t) (hs : I s) :
    I t ∧ Trace S (p s) (outputs f o s as).flatten (p t) := by
  induction h with
  | nil s => exact ⟨hs, .nil (p s)⟩
  | @cons s u t a as hR _ ih =>
    obtain ⟨ha, rfl⟩ := hR
    obtain ⟨hI, htrace⟩ := hstep s a hs ha
    obtain ⟨hI', htrace'⟩ := ih hI
    exact ⟨hI', htrace.append htrace'⟩

end Guarded

end Lts
