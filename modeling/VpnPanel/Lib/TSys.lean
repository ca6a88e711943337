import Mathlib.Logic.Relation
import Mathlib.Data.List.Basic

/-!
# Guarded transition systems

A system is an initial state and a partial step function: `step s e` is the
state after event `e`, or `none` when `e` is not enabled in `s`. One definition
then serves replay of a concrete trace and proof over every reachable state.

`Reaches ok` restricts the runs to those whose every step meets `ok`, a
condition on the state before the step and the event; `Reachable` is the
unrestricted case. `Trace` records the events and the states of one run, for
statements about a whole run rather than about its last state.
-/

namespace VpnPanel.Lib

/-- A guarded, executable transition system. -/
structure TSys (S E : Type) where
  init : S
  step : S → E → Option S

namespace TSys

variable {S E : Type} (sys : TSys S E)

/-- States at the end of a run whose steps all meet `ok`. -/
inductive Reaches (ok : S → E → Prop) : S → Prop
  | init : Reaches ok sys.init
  | step {s s' : S} {e : E} : Reaches ok s → ok s e → sys.step s e = some s' →
      Reaches ok s'

/-- States at the end of any run. -/
def Reachable : S → Prop := sys.Reaches fun _ _ => True

variable {sys}

/-- **Invariant rule.** A predicate that holds initially and is kept by every
enabled step meeting `ok` holds in every state such runs reach. -/
theorem Reaches.invariant {ok : S → E → Prop} {P : S → Prop} (hinit : P sys.init)
    (hstep : ∀ s e s', P s → ok s e → sys.step s e = some s' → P s') {s : S}
    (h : sys.Reaches ok s) : P s := by
  induction h with
  | init => exact hinit
  | step _ hok hse ih => exact hstep _ _ _ ih hok hse

/-- Weakening the condition only adds runs. -/
theorem Reaches.mono {ok ok' : S → E → Prop} (himp : ∀ s e, ok s e → ok' s e) {s : S}
    (h : sys.Reaches ok s) : sys.Reaches ok' s :=
  h.invariant .init fun _ _ _ hP hok hse => .step hP (himp _ _ hok) hse

theorem Reaches.reachable {ok : S → E → Prop} {s : S} (h : sys.Reaches ok s) :
    sys.Reachable s := h.mono fun _ _ _ => trivial

/-- An invariant of all runs may be used while proving one of conditioned
runs. -/
theorem Reaches.invariant_with {ok : S → E → Prop} {P Q : S → Prop}
    (hQ : ∀ s, sys.Reachable s → Q s) (hinit : P sys.init)
    (hstep : ∀ s e s', Q s → P s → ok s e → sys.step s e = some s' → P s') {s : S}
    (h : sys.Reaches ok s) : P s := by
  induction h with
  | init => exact hinit
  | step hs hok hse ih => exact hstep _ _ _ (hQ _ hs.reachable) ih hok hse

variable (sys)

/-- Replay `evs` from `s`; `none` once an event is not enabled. -/
def replayFrom (s : S) : List E → Option S
  | [] => some s
  | e :: evs => (sys.step s e).bind fun s' => replayFrom s' evs

/-- Replay from the initial state. -/
def replay (evs : List E) : Option S := sys.replayFrom sys.init evs

/-- Every step of the replay of `evs` from `s` meets `ok`. -/
def ReplayOk (ok : S → E → Prop) (s : S) : List E → Prop
  | [] => True
  | e :: evs => ok s e ∧ ∀ s' ∈ sys.step s e, ReplayOk ok s' evs

instance decidableReplayOk (ok : S → E → Prop) [∀ s e, Decidable (ok s e)] :
    ∀ (s : S) (evs : List E), Decidable (sys.ReplayOk ok s evs)
  | _, [] => isTrue trivial
  | s, e :: evs =>
      have : Decidable (∀ s' ∈ sys.step s e, sys.ReplayOk ok s' evs) :=
        match sys.step s e with
        | none => isTrue fun _ h => nomatch h
        | some s' => match decidableReplayOk ok s' evs with
            | isTrue h => isTrue fun _ hs => Option.some.inj hs ▸ h
            | isFalse h => isFalse fun hall => h (hall s' rfl)
      inferInstanceAs (Decidable (ok s e ∧ ∀ s' ∈ sys.step s e, sys.ReplayOk ok s' evs))

variable {sys}

/-- **Replay rule.** What every step meeting `ok` keeps, a replay of such steps
keeps. -/
theorem replayFrom_keeps {ok : S → E → Prop} {P : S → Prop}
    (hstep : ∀ s e s', P s → ok s e → sys.step s e = some s' → P s') :
    ∀ (evs : List E) {s t : S}, P s → sys.ReplayOk ok s evs →
      sys.replayFrom s evs = some t → P t := by
  intro evs
  induction evs with
  | nil =>
      intro s t hs _ ht
      exact Option.some.inj ht ▸ hs
  | cons e evs ih =>
      intro s t hs hok ht
      obtain ⟨s', hse, ht⟩ := Option.bind_eq_some_iff.mp ht
      exact ih (hstep s e s' hs hok.1 hse) (hok.2 s' hse) ht

theorem replayFrom_append (evs more : List E) : ∀ s : S,
    sys.replayFrom s (evs ++ more) = (sys.replayFrom s evs).bind (sys.replayFrom · more) := by
  induction evs with
  | nil =>
      intro s
      rfl
  | cons e evs ih =>
      intro s
      show (sys.step s e).bind _ = ((sys.step s e).bind _).bind _
      rw [Option.bind_assoc]
      exact congrArg _ (funext ih)

/-- **Erasure rule.** `proj` forgets what the `own` events do: in the runs that
end in `Q` they change nothing else, and the others are enabled without them.
Then such a run without its `own` events is a run, too. -/
theorem replayFrom_erase {own : E → Bool} {proj : S → S} {Q : S → Prop}
    (hQ : ∀ s e s', sys.step s e = some s' → Q s' → Q s)
    (hown : ∀ s e s', Q s' → own e = true → sys.step s e = some s' → proj s' = proj s)
    (hother : ∀ s e s', own e = false → sys.step s e = some s' →
      sys.step (proj s) e = some (proj s')) :
    ∀ (evs : List E) {s t : S}, sys.replayFrom s evs = some t → Q t →
      Q s ∧ sys.replayFrom (proj s) (evs.filter (!own ·)) = some (proj t) := by
  intro evs
  induction evs with
  | nil =>
      intro s t ht hq
      cases ht
      exact ⟨hq, rfl⟩
  | cons e evs ih =>
      intro s t ht hq
      obtain ⟨s', hse, ht⟩ := Option.bind_eq_some_iff.mp ht
      obtain ⟨hq', hrest⟩ := ih ht hq
      refine ⟨hQ s e s' hse hq', ?_⟩
      cases howns : own e with
      | true =>
          rw [List.filter_cons_of_neg (by simp [howns]), ← hown s e s' hq' howns hse]
          exact hrest
      | false =>
          rw [List.filter_cons_of_pos (by simp [howns])]
          show (sys.step (proj s) e).bind _ = _
          rw [hother s e s' howns hse]
          exact hrest

/-- **Erasure rule, up to a relation.** The `own` events keep the states related
to a state that does not take them, and every other event can be taken there,
too. -/
theorem replayFrom_erase_upTo {own : E → Bool} {ok : S → E → Prop} {R : S → S → Prop}
    (hown : ∀ s e s' t, R s t → ok s e → own e = true → sys.step s e = some s' → R s' t)
    (hother : ∀ s e s' t, R s t → ok s e → own e = false → sys.step s e = some s' →
      ∃ t', sys.step t e = some t' ∧ R s' t') :
    ∀ (evs : List E) {s t s' : S}, R s t → sys.ReplayOk ok s evs →
      sys.replayFrom s evs = some s' →
      ∃ t', sys.replayFrom t (evs.filter (!own ·)) = some t' ∧ R s' t' := by
  intro evs
  induction evs with
  | nil =>
      intro s t s' hR _ hs
      cases hs
      exact ⟨t, rfl, hR⟩
  | cons e evs ih =>
      intro s t s' hR hok hs
      obtain ⟨u, hse, hs⟩ := Option.bind_eq_some_iff.mp hs
      cases howns : own e with
      | true =>
          rw [List.filter_cons_of_neg (by simp [howns])]
          exact ih (hown s e u t hR hok.1 howns hse) (hok.2 u hse) hs
      | false =>
          obtain ⟨v, hte, hR'⟩ := hother s e u t hR hok.1 howns hse
          obtain ⟨t', ht, hR''⟩ := ih hR' (hok.2 u hse) hs
          rw [List.filter_cons_of_pos (by simp [howns])]
          refine ⟨t', ?_, hR''⟩
          show (sys.step t e).bind _ = _
          rw [hte]
          exact ht

theorem replayOk_of_forall {ok : S → E → Prop} (evs : List E) :
    (∀ e ∈ evs, ∀ s, ok s e) → ∀ s, sys.ReplayOk ok s evs := by
  induction evs with
  | nil =>
      intro _ _
      trivial
  | cons e evs ih =>
      intro hok s
      exact ⟨hok e List.mem_cons_self s,
        fun s' _ => ih (fun x hx => hok x (List.mem_cons_of_mem _ hx)) s'⟩

/-- A successful replay ends in a reachable state. -/
theorem replay_reachable {evs : List E} {s : S} (h : sys.replay evs = some s) :
    sys.Reachable s :=
  replayFrom_keeps (fun _ _ _ hs hok hse => Reaches.step hs hok hse) evs .init
    (replayOk_of_forall evs (fun _ _ _ => trivial) _) h

/-- A check that succeeds on a replay names the state it ends in. -/
theorem replay_any {evs : List E} {f : S → Bool} (h : (sys.replay evs).any f = true) :
    ∃ s, sys.replay evs = some s ∧ f s = true := (Option.any_eq_true _ _).mp h

/-- A successful replay whose steps meet `ok` ends in a state so reached. -/
theorem replay_reaches {ok : S → E → Prop} {evs : List E} {s : S}
    (hok : sys.ReplayOk ok sys.init evs) (h : sys.replay evs = some s) :
    sys.Reaches ok s :=
  replayFrom_keeps (fun _ _ _ hs hok hse => Reaches.step hs hok hse) evs .init hok h

variable (sys)

/-- `Trace s steps t`: the run from `s` to `t` that takes `steps`, each listed
with the state before it. -/
inductive Trace : S → List (S × E) → S → Prop
  | nil (s : S) : Trace s [] s
  | cons {s s' t : S} {e : E} {rest : List (S × E)} :
      sys.step s e = some s' → Trace s' rest t → Trace s ((s, e) :: rest) t

variable {sys}

theorem Trace.reaches {ok : S → E → Prop} {s t : S} {steps : List (S × E)}
    (h : sys.Trace s steps t) (hok : ∀ x ∈ steps, ok x.1 x.2) (hs : sys.Reaches ok s) :
    sys.Reaches ok t := by
  induction h with
  | nil _ => exact hs
  | cons hse _ ih =>
      exact ih (fun x hx => hok x (List.mem_cons_of_mem _ hx))
        (.step hs (hok _ List.mem_cons_self) hse)

/-- **Run rule.** What every step meeting `ok` keeps, a run of such steps keeps. -/
theorem Trace.keeps {ok : S → E → Prop} {P : S → Prop}
    (hstep : ∀ s e s', P s → ok s e → sys.step s e = some s' → P s') {s t : S}
    {steps : List (S × E)} (h : sys.Trace s steps t) (hok : ∀ x ∈ steps, ok x.1 x.2) (hs : P s) :
    P t := by
  induction h with
  | nil _ => exact hs
  | cons hse _ ih =>
      exact ih (fun x hx => hok x (List.mem_cons_of_mem _ hx))
        (hstep _ _ _ hs (hok _ List.mem_cons_self) hse)

/-- A run before and after one of its steps. -/
theorem Trace.split {s t : S} {steps : List (S × E)} (h : sys.Trace s steps t) {x : S × E}
    (hx : x ∈ steps) : ∃ before after s', steps = before ++ x :: after ∧
      sys.Trace s before x.1 ∧ sys.step x.1 x.2 = some s' ∧ sys.Trace s' after t := by
  induction h with
  | nil _ => exact absurd hx List.not_mem_nil
  | @cons s s' t e rest hse hrest ih =>
      rcases List.mem_cons.mp hx with rfl | hx
      · exact ⟨[], rest, s', rfl, .nil s, hse, hrest⟩
      · obtain ⟨before, after, u, rfl, hbefore, hstep, hafter⟩ := ih hx
        exact ⟨(s, e) :: before, after, u, rfl, .cons hse hbefore, hstep, hafter⟩

/-- A replay whose steps meet `ok` is a run of such steps. -/
theorem Trace.of_replayOk {ok : S → E → Prop} : ∀ (evs : List E) {s t : S},
    sys.ReplayOk ok s evs → sys.replayFrom s evs = some t →
    ∃ steps, sys.Trace s steps t ∧ ∀ x ∈ steps, ok x.1 x.2 := by
  intro evs
  induction evs with
  | nil =>
      intro s t _ h
      cases h
      exact ⟨[], .nil s, fun x hx => absurd hx List.not_mem_nil⟩
  | cons e evs ih =>
      intro s t hok h
      obtain ⟨s', hse, h⟩ := Option.bind_eq_some_iff.mp h
      obtain ⟨steps, hrest, hsteps⟩ := ih (hok.2 s' hse) h
      refine ⟨(s, e) :: steps, .cons hse hrest, fun x hx => ?_⟩
      rcases List.mem_cons.mp hx with rfl | hx
      · exact hok.1
      · exact hsteps x hx

/-- A replay is a run. -/
theorem Trace.of_replayFrom (evs : List E) {s t : S} (h : sys.replayFrom s evs = some t) :
    ∃ steps, sys.Trace s steps t := by
  have hok : sys.ReplayOk (fun _ _ => True) s evs :=
    replayOk_of_forall evs (fun _ _ _ => trivial) s
  obtain ⟨steps, htrace, -⟩ := Trace.of_replayOk evs hok h
  exact ⟨steps, htrace⟩

theorem Trace.append {s t u : S} {l m : List (S × E)} (h : sys.Trace s l t)
    (h' : sys.Trace t m u) : sys.Trace s (l ++ m) u := by
  induction h with
  | nil _ => exact h'
  | cons hse _ ih => exact .cons hse (ih h')

/-- The states a run passes through, its last one included. -/
def statesOf (steps : List (S × E)) (t : S) : List S := steps.map Prod.fst ++ [t]

theorem Trace.start_mem {s t : S} {steps : List (S × E)} (h : sys.Trace s steps t) :
    s ∈ statesOf steps t := by
  cases h with
  | nil _ => exact List.mem_cons_self
  | cons _ _ => exact List.mem_cons_self

/-- **Fault rule.** Where every `A` step but the `B` ones keeps `I`, which gives
`P`, and a `B` step from `I` ends outside `P`, a run stays in `P` exactly when
it takes no `B` step. -/
theorem Trace.forall_states_iff {I P : S → Prop} {A B : S → E → Prop}
    (hI : ∀ s, I s → P s)
    (hkeep : ∀ s e s', I s → A s e → ¬B s e → sys.step s e = some s' → I s')
    (hbad : ∀ s e s', I s → A s e → B s e → sys.step s e = some s' → ¬P s')
    {s t : S} {steps : List (S × E)} (h : sys.Trace s steps t)
    (hok : ∀ x ∈ steps, A x.1 x.2) (hs : I s) :
    (∀ x ∈ statesOf steps t, P x) ↔ ∀ x ∈ steps, ¬B x.1 x.2 := by
  induction h with
  | nil s =>
      refine ⟨fun _ x hx => absurd hx List.not_mem_nil, fun _ x hx => ?_⟩
      rw [List.mem_singleton.mp hx]
      exact hI s hs
  | @cons s s' t e rest hse hrest ih =>
      have hnow := hok (s, e) List.mem_cons_self
      have hlater : ∀ x ∈ rest, A x.1 x.2 := fun x hx => hok x (List.mem_cons_of_mem _ hx)
      by_cases hb : B s e
      · -- the run has left `P` right after this step
        refine ⟨fun hall => ?_, fun hnone => absurd hb (hnone (s, e) List.mem_cons_self)⟩
        exact absurd (hall s' (List.mem_cons_of_mem _ hrest.start_mem))
          (hbad s e s' hs hnow hb hse)
      · have hrest' := ih hlater (hkeep s e s' hs hnow hb hse)
        refine ⟨fun hall x hx => ?_, fun hnone x hx => ?_⟩
        · rcases List.mem_cons.mp hx with rfl | hx
          · exact hb
          · exact hrest'.mp (fun y hy => hall y (List.mem_cons_of_mem _ hy)) x hx
        · rcases List.mem_cons.mp hx with rfl | hx
          · exact hI _ hs
          · exact hrest'.mpr (fun y hy => hnone y (List.mem_cons_of_mem _ hy)) x hx

end TSys

end VpnPanel.Lib
