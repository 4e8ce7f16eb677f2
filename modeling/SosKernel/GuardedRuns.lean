import Mathlib.Logic.Basic

/-! # Runs of a partial step function

A step may fail to return (`none`); an event may be illegal in a state. Traces
are finite event lists. A safety result is one step lemma and one of the rules below. -/
namespace GuardedRuns

variable {σ ε : Type*} {step : σ → ε → Option σ} {legal : σ → ε → Prop} {es : List ε}
  {Inv : σ → Prop}

def runTrace (step : σ → ε → Option σ) (s : σ) : List ε → Option σ
  | [] => some s
  | e :: es => (step s e).bind (fun u => runTrace step u es)

def ValidTrace (step : σ → ε → Option σ) (legal : σ → ε → Prop) (s : σ) : List ε → Prop
  | [] => True
  | e :: es => legal s e ∧ (step s e).elim True (fun u => ValidTrace step legal u es)

instance decidableElim {d : Prop} [Decidable d] {p : σ → Prop} [DecidablePred p] (o : Option σ) :
    Decidable (o.elim d p) :=
  match o with
  | none => inferInstanceAs (Decidable d)
  | some u => inferInstanceAs (Decidable (p u))

instance decidableValidTrace [∀ s e, Decidable (legal s e)] :
    ∀ (es : List ε) (s : σ), Decidable (ValidTrace step legal s es)
  | [], _ => isTrue trivial
  | e :: es, s =>
    have : DecidablePred (fun u => ValidTrace step legal u es) := decidableValidTrace es
    inferInstanceAs (Decidable (legal s e ∧ _))

lemma validTrace_of_forall {ok : ε → Prop} (h : ∀ e ∈ es, ok e) :
    ∀ s : σ, ValidTrace step (fun _ e => ok e) s es := by
  induction es with
  | nil => intro s; trivial
  | cons e es ih =>
    intro s
    have hrest := ih (fun d hd => h d (List.mem_cons_of_mem _ hd))
    constructor
    · exact h e List.mem_cons_self
    · cases step s e with
      | none => trivial
      | some u => exact hrest u

lemma validTrace_imp {legal' legal'' : σ → ε → Prop}
    (himp : ∀ s e, legal s e → legal' s e → legal'' s e) : ∀ {s : σ},
    ValidTrace step legal s es → ValidTrace step legal' s es → ValidTrace step legal'' s es := by
  induction es with
  | nil => exact fun _ _ => trivial
  | cons e es ih =>
    rintro s ⟨hlegal, hrest⟩ ⟨hlegal', hrest'⟩
    refine ⟨himp s e hlegal hlegal', ?_⟩
    cases hs : step s e with
    | none => trivial
    | some u =>
      rw [hs] at hrest hrest'
      exact ih hrest hrest'

lemma run_invariant
    (hstep : ∀ s e, Inv s → legal s e → ∃ u, step s e = some u ∧ Inv u) :
    ∀ {s : σ}, Inv s → ValidTrace step legal s es → ∃ u, runTrace step s es = some u ∧ Inv u := by
  induction es with
  | nil => intro s hs _; exact ⟨s, rfl, hs⟩
  | cons e es ih =>
    intro s hs hv
    obtain ⟨u, hu, hi⟩ := hstep s e hs hv.1
    have hrest : ValidTrace step legal u es := by simpa [ValidTrace, hu] using hv.2
    obtain ⟨v, hv', hiv⟩ := ih hi hrest
    exact ⟨v, by simp [runTrace, hu, hv'], hiv⟩

lemma run_invariant_of_some
    (hstep : ∀ s e u, Inv s → legal s e → step s e = some u → Inv u) :
    ∀ {s u : σ}, Inv s → ValidTrace step legal s es → runTrace step s es = some u → Inv u := by
  induction es with
  | nil =>
    intro s u hs _ hrun
    cases hrun
    exact hs
  | cons e es ih =>
    intro s u hs hv hrun
    obtain ⟨v, hv', hrest⟩ := Option.bind_eq_some_iff.mp hrun
    have hvalid : ValidTrace step legal v es := by simpa [ValidTrace, hv'] using hv.2
    exact ih (hstep s e v hs hv.1 hv') hvalid hrest

lemma exists_of_elim {P : σ → Prop} {o : Option σ} (h : o.elim False P) :
    ∃ s, o = some s ∧ P s := by
  cases o with
  | none => exact h.elim
  | some s => exact ⟨s, rfl, h⟩

instance decidableExistsSome {p : σ → Prop} [DecidablePred p] (o : Option σ) :
    Decidable (∃ s, o = some s ∧ p s) :=
  decidable_of_iff (o.elim False p) ⟨exists_of_elim, fun ⟨_, hs, hp⟩ => hs ▸ hp⟩

instance decidableExistsTrue {p : σ → Prop} [DecidablePred p] (o : Option (σ × Bool)) :
    Decidable (∃ s, o = some (s, true) ∧ p s) :=
  decidable_of_iff (∃ r, o = some r ∧ r.2 = true ∧ p r.1)
    ⟨fun ⟨⟨s, _⟩, hs, rfl, hp⟩ => ⟨s, hs, hp⟩, fun ⟨s, hs, hp⟩ => ⟨(s, true), hs, rfl, hp⟩⟩

instance decidableExistsOk {p : σ → Prop} [DecidablePred p] (o : Option (Except ε σ)) :
    Decidable (∃ s, o = some (.ok s) ∧ p s) :=
  decidable_of_iff (∃ r, o = some r ∧ ∃ s, r.toOption = some s ∧ p s)
    ⟨fun ⟨.ok s, hr, _, rfl, hp⟩ => ⟨s, hr, hp⟩, fun ⟨s, hs, hp⟩ => ⟨.ok s, hs, s, rfl, hp⟩⟩

end GuardedRuns
