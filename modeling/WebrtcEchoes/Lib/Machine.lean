/-
A machine that takes labelled steps, and what holds along its runs.

A component with threads, timers or callbacks is modelled by its state and a
partial `step`: the label says which party moves and what the environment answered
it, and `none` says that the move is not possible in that state.  A run is then
nothing but the list of labels, so an interleaving is a list and "for every
interleaving" is a quantifier over lists.

Four rules carry every proof above.  `run_induction` is induction on the last step
of a run and lets the invariant speak about the labels seen so far as well as
about the state.  `run_of_each` is the same for runs all of whose steps meet a side
condition, which is how a property that holds only under such a condition is
stated.  `run_of_simulation` turns a run into a run of a simpler machine.
`exists_execution` extends a run to one that has ended.
-/
import Mathlib.Data.List.Induction
import Mathlib.Data.List.Infix

namespace WebrtcEchoes

/-- A transition system whose labels determine the successor. -/
structure Machine (σ ε : Type) where
  /-- The state every run starts in. -/
  init : σ
  /-- The successor, or `none` when the label is not enabled. -/
  step : σ → ε → Option σ

namespace Machine

variable {σ ε : Type} (m : Machine σ ε)

/-! ### Runs -/

/-- Take the labels in order from a given state. -/
def runFrom : σ → List ε → Option σ
  | s, [] => some s
  | s, e :: es => (m.step s e).bind fun s' => runFrom s' es

/-- The state a list of labels leads to, if every one of them is enabled in turn. -/
def run (es : List ε) : Option σ := m.runFrom m.init es

@[simp] theorem run_nil : m.run [] = some m.init := rfl

theorem runFrom_append (es fs : List ε) :
    ∀ s, m.runFrom s (es ++ fs) = (m.runFrom s es).bind fun s' => m.runFrom s' fs := by
  induction es with
  | nil => intro s; rfl
  | cons e rest ih =>
      intro s
      simp only [List.cons_append, runFrom, Option.bind_assoc]
      exact Option.bind_congr fun s' _ => ih s'

theorem run_append (es fs : List ε) :
    m.run (es ++ fs) = (m.run es).bind fun s => m.runFrom s fs :=
  m.runFrom_append es fs m.init

theorem run_snoc (es : List ε) (e : ε) :
    m.run (es ++ [e]) = (m.run es).bind fun s => m.step s e := by
  rw [run_append]
  refine Option.bind_congr fun s _ => ?_
  simp only [runFrom]
  exact Option.bind_fun_some _

theorem run_snoc_eq_some {es : List ε} {e : ε} {s' : σ} :
    m.run (es ++ [e]) = some s' ↔ ∃ s, m.run es = some s ∧ m.step s e = some s' := by
  rw [run_snoc, Option.bind_eq_some_iff]

/-! ### Induction on the last step -/

variable {m}

/-- **What holds at the start and survives every step holds after every run.**  The
property may speak about the labels taken so far. -/
theorem run_induction {P : List ε → σ → Prop} (h0 : P [] m.init)
    (hstep : ∀ es s e s', m.run es = some s → P es s → m.step s e = some s' →
      P (es ++ [e]) s') :
    ∀ es s, m.run es = some s → P es s := by
  intro es
  induction es using List.reverseRecOn with
  | nil =>
      intro s h
      obtain rfl : m.init = s := by simpa using h
      exact h0
  | append_singleton es e ih =>
      intro s' h
      obtain ⟨s, hs, hse⟩ := m.run_snoc_eq_some.mp h
      exact hstep es s e s' hs (ih s hs) hse

/-! ### Conditions on the steps of a run -/

/-- Every step the labels take satisfies `R`. -/
def Each (m : Machine σ ε) (R : σ → ε → σ → Prop) (es : List ε) : Prop :=
  ∀ pre e post s s', es = pre ++ e :: post → m.run pre = some s → m.step s e = some s' →
    R s e s'

/-- Every state the labels lead through satisfies `I`. -/
def Throughout (m : Machine σ ε) (I : σ → Prop) (es : List ε) : Prop :=
  ∀ pre post s, es = pre ++ post → m.run pre = some s → I s

theorem each_nil (R : σ → ε → σ → Prop) : m.Each R [] := by
  intro pre e post s s' h
  simp at h

theorem Each.of_append {R : σ → ε → σ → Prop} {es fs : List ε} (h : m.Each R (es ++ fs)) :
    m.Each R es := by
  intro pre e post s s' he
  exact h pre e (post ++ fs) s s' (by simp [he])

theorem Each.last {R : σ → ε → σ → Prop} {es : List ε} {e : ε} {s s' : σ}
    (h : m.Each R (es ++ [e])) (hs : m.run es = some s) (hse : m.step s e = some s') :
    R s e s' :=
  h es e [] s s' rfl hs hse

theorem Each.mono {R R' : σ → ε → σ → Prop} {es : List ε} (h : m.Each R es)
    (himp : ∀ s e s', R s e s' → R' s e s') : m.Each R' es :=
  fun pre e post s s' he hs hse => himp s e s' (h pre e post s s' he hs hse)

/-- The steps of a run that meet `R`, one more included. -/
theorem each_snoc {R : σ → ε → σ → Prop} {es : List ε} {e : ε} :
    m.Each R (es ++ [e]) ↔
      m.Each R es ∧ ∀ s s', m.run es = some s → m.step s e = some s' → R s e s' := by
  refine ⟨?_, ?_⟩
  · intro h
    exact ⟨h.of_append, fun s s' hs hse => h.last hs hse⟩
  · intro ⟨h, hlast⟩ pre e' post s s' he hs hse
    rcases List.eq_nil_or_concat post with rfl | ⟨post', f, rfl⟩
    · obtain ⟨rfl, hee⟩ := List.append_inj' he rfl
      obtain rfl : e = e' := by simpa using hee
      exact hlast s s' hs hse
    · have he' : es ++ [e] = (pre ++ e' :: post') ++ [f] := by simpa using he
      obtain ⟨rfl, -⟩ := List.append_inj' he' rfl
      exact h pre e' post' s s' rfl hs hse

/-- **Induction over the runs whose steps all meet a condition.** -/
theorem run_of_each {G : σ → ε → σ → Prop} {P : List ε → σ → Prop} (h0 : P [] m.init)
    (hstep : ∀ es s e s', m.run es = some s → P es s → m.step s e = some s' → G s e s' →
      P (es ++ [e]) s') :
    ∀ es s, m.run es = some s → m.Each G es → P es s := by
  refine run_induction (P := fun es s => m.Each G es → P es s) (fun _ => h0) ?_
  intro es s e s' hs ih hse hG
  exact hstep es s e s' hs (ih hG.of_append) hse (hG.last hs hse)

/-- A property of the states, under a condition on the steps, holds all along. -/
theorem throughout_of_each {G : σ → ε → σ → Prop} {I : σ → Prop} (h0 : I m.init)
    (hstep : ∀ s e s', I s → m.step s e = some s' → G s e s' → I s') {es : List ε}
    (hG : m.Each G es) : m.Throughout I es := by
  rintro pre post s rfl hs
  exact run_of_each (P := fun _ s => I s) h0
    (fun _ s e s' _ ih hse hg => hstep s e s' ih hse hg) pre s hs hG.of_append

/-- **The steps of a run all meet `G` just when nothing has set `B`.**  Here `B` is a
property of the states that a step sets by not meeting `G`, and that no step resets. -/
theorem each_iff_not {G : σ → ε → σ → Prop} {B : σ → Prop} (h0 : ¬ B m.init)
    (hstep : ∀ es s e s', m.run es = some s → m.step s e = some s' →
      (B s' ↔ B s ∨ ¬ G s e s')) :
    ∀ es s, m.run es = some s → (m.Each G es ↔ ¬ B s) := by
  refine run_induction (iff_of_true (each_nil G) h0) ?_
  intro es s e s' hs ih hse
  have hlast : (∀ t t', m.run es = some t → m.step t e = some t' → G t e t') ↔ G s e s' := by
    refine ⟨?_, ?_⟩
    · intro h
      exact h s s' hs hse
    · intro h t t' ht hte
      obtain rfl : s = t := Option.some.inj (hs.symm.trans ht)
      obtain rfl : s' = t' := Option.some.inj (hse.symm.trans hte)
      exact h
  rw [each_snoc, ih, hlast, hstep es s e s' hs hse, not_or, not_not]

/-- The same, for every state on the way. -/
theorem each_iff_throughout_not {G : σ → ε → σ → Prop} {B : σ → Prop} (h0 : ¬ B m.init)
    (hstep : ∀ es s e s', m.run es = some s → m.step s e = some s' →
      (B s' ↔ B s ∨ ¬ G s e s')) (es : List ε) :
    m.Each G es ↔ m.Throughout (fun s => ¬ B s) es := by
  refine ⟨?_, ?_⟩
  · intro h pre post s he hs
    rw [he] at h
    exact (each_iff_not h0 hstep pre s hs).mp h.of_append
  · intro h pre e post s s' he hs hse
    have hs' : m.run (pre ++ [e]) = some s' := m.run_snoc_eq_some.mpr ⟨s, hs, hse⟩
    have hnot : ¬ B s' := h (pre ++ [e]) post s' (by simp [he]) hs'
    exact ((each_iff_not h0 hstep (pre ++ [e]) s' hs').mpr hnot).last hs hse

/-- **The steps of a run all meet `G` just when `I` holds throughout.**  Here a step from
a state with `I` leads to a state with `I` exactly when it meets `G`. -/
theorem each_iff_throughout {G : σ → ε → σ → Prop} {I : σ → Prop} (h0 : I m.init)
    (hstep : ∀ es s e s', m.run es = some s → I s → m.step s e = some s' →
      (I s' ↔ G s e s')) (es : List ε) : m.Each G es ↔ m.Throughout I es := by
  refine ⟨?_, ?_⟩
  · rintro h pre post s rfl hs
    exact run_of_each (P := fun _ s => I s) h0
      (fun es s e s' hs ih hse hg => (hstep es s e s' hs ih hse).mpr hg) pre s hs h.of_append
  · intro h pre e post s s' he hs hse
    have hs' : m.run (pre ++ [e]) = some s' := m.run_snoc_eq_some.mpr ⟨s, hs, hse⟩
    exact (hstep pre s e s' hs (h pre (e :: post) s he hs) hse).mp
      (h (pre ++ [e]) post s' (by simp [he]) hs')

/-! ### Simulation -/

/-- The step of an abstract machine that answers a step, or no step at all. -/
def Answers {τ ε' : Type} (m' : Machine τ ε') (R : σ → τ → Prop) (s' : σ) (t : τ) :
    Option ε' → Prop
  | some e' => ∃ t', m'.step t e' = some t' ∧ R s' t'
  | none => R s' t

theorem Answers.mono {τ ε' : Type} {m' : Machine τ ε'} {R R' : σ → τ → Prop} {s' : σ} {t : τ}
    {e' : Option ε'} (h : m'.Answers R s' t e') (himp : ∀ t', R s' t' → R' s' t') :
    m'.Answers R' s' t e' := by
  cases e' with
  | none => exact himp t h
  | some e' =>
      obtain ⟨t', hte, hR⟩ := h
      exact ⟨t', hte, himp t' hR⟩

/-- **A run whose steps an abstract machine can answer is a run of that machine.** -/
theorem run_of_simulation {τ ε' : Type} (m' : Machine τ ε') {G : σ → ε → σ → Prop}
    {R : σ → τ → Prop} (abs : ε → Option ε') (h0 : R m.init m'.init)
    (hstep : ∀ s t e s', R s t → m.step s e = some s' → G s e s' → Answers m' R s' t (abs e)) :
    ∀ es s, m.run es = some s → m.Each G es →
      ∃ t, m'.run (es.filterMap abs) = some t ∧ R s t := by
  refine run_of_each (P := fun es s => ∃ t, m'.run (es.filterMap abs) = some t ∧ R s t)
    ⟨m'.init, rfl, h0⟩ ?_
  rintro es s e s' - ⟨t, ht, hR⟩ hse hG
  have hans := hstep s t e s' hR hse hG
  rw [List.filterMap_append]
  cases habs : abs e with
  | none =>
      rw [habs] at hans
      exact ⟨t, by simpa [habs] using ht, hans⟩
  | some e' =>
      rw [habs] at hans
      obtain ⟨t', hte, hR'⟩ := hans
      refine ⟨t', ?_, hR'⟩
      simp only [List.filterMap_cons, List.filterMap_nil, habs]
      exact m'.run_snoc_eq_some.mpr ⟨t, ht, hte⟩

/-! ### Runs that have ended -/

/-- A run that reached a final state, with the outcome read off that state. -/
structure Execution {ρ : Type} (m : Machine σ ε) (outcome : σ → Option ρ) where
  events : List ε
  result : ρ
  ended : (m.run events).bind outcome = some result

theorem Execution.final {ρ : Type} {outcome : σ → Option ρ} (x : m.Execution outcome) :
    ∃ s, m.run x.events = some s ∧ outcome s = some x.result :=
  Option.bind_eq_some_iff.mp x.ended

/-- **A run that can always take a step that lowers a measure can be run to its end.** -/
theorem exists_execution {ρ : Type} {outcome : σ → Option ρ} (μ : σ → Nat)
    (hprogress : ∀ es s, m.run es = some s → outcome s = none →
      ∃ e s', m.step s e = some s' ∧ μ s' < μ s) :
    ∀ es s, m.run es = some s → ∃ x : m.Execution outcome, es <+: x.events := by
  have key : ∀ (n : Nat) (es : List ε) (s : σ), μ s ≤ n → m.run es = some s →
      ∃ x : m.Execution outcome, es <+: x.events := by
    intro n
    induction n with
    | zero =>
        intro es s hμ h
        cases hx : outcome s with
        | some r => exact ⟨⟨es, r, by rw [h]; exact hx⟩, List.prefix_refl es⟩
        | none =>
            obtain ⟨e, s', -, hlt⟩ := hprogress es s h hx
            omega
    | succ n ih =>
        intro es s hμ h
        cases hx : outcome s with
        | some r => exact ⟨⟨es, r, by rw [h]; exact hx⟩, List.prefix_refl es⟩
        | none =>
            obtain ⟨e, s', hstep, hlt⟩ := hprogress es s h hx
            obtain ⟨x, hpre⟩ := ih (es ++ [e]) s' (by omega)
              (m.run_snoc_eq_some.mpr ⟨s, h, hstep⟩)
            exact ⟨x, (List.prefix_append es [e]).trans hpre⟩
  intro es s h
  exact key (μ s) es s (Nat.le_refl _) h

/-! ### Scripts

A party that goes through a fixed list of calls keeps the calls still to be made.
-/

/-- What is left behind a call that is not the last one still ends in the last one. -/
theorem getLast?_tail {α : Type} {call last : α} {rest : List α}
    (h : (call :: rest).getLast? = some last) (hne : call ≠ last) :
    rest.getLast? = some last := by
  cases rest with
  | nil => exact absurd (by simpa using h) hne
  | cons next rest => rwa [List.getLast?_cons_cons] at h

end Machine

end WebrtcEchoes
