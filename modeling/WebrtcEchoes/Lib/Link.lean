/-
Two parties and the two lines between them.

A party is a machine some of whose labels take a message and some of whose labels send
messages.  Each line keeps what is sent on it, loses nothing, repeats nothing and keeps
the order.  In a link both parties move, one at a time and in any order.

A run of a link is for each party a run of its own, and what one party has sent is what
the other has taken, with what is still on the line behind it (`inTransit_run`).  The
other way round, what a party can do alone it can do in the link (`runFrom_left`), and a
message at the front of a line can be taken.
-/
import WebrtcEchoes.Lib.Machine

namespace WebrtcEchoes

/-- A machine with one incoming and one outgoing line. -/
structure Party (σ ε μ : Type) extends Machine σ ε where
  /-- The message that a label takes. -/
  takes : ε → Option μ
  sends : ε → List μ

namespace Party

variable {σ ε μ : Type} (p : Party σ ε μ)

/-- The messages that these labels take. -/
def taken (es : List ε) : List μ := es.filterMap p.takes

def sent (es : List ε) : List μ := es.flatMap p.sends

theorem taken_append (es fs : List ε) : p.taken (es ++ fs) = p.taken es ++ p.taken fs :=
  List.filterMap_append

theorem sent_append (es fs : List ε) : p.sent (es ++ fs) = p.sent es ++ p.sent fs :=
  List.flatMap_append

theorem mem_taken {p : Party σ ε μ} {es : List ε} {m : μ} :
    m ∈ p.taken es ↔ ∃ e ∈ es, p.takes e = some m := List.mem_filterMap

theorem taken_singleton (e : ε) : p.taken [e] = (p.takes e).toList := by
  cases h : p.takes e <;> simp [taken, h]

theorem sent_singleton (e : ε) : p.sent [e] = p.sends e := by simp [sent]

theorem taken_cons (e : ε) (es : List ε) :
    p.taken (e :: es) = (p.takes e).toList ++ p.taken es := by
  rw [← taken_singleton, ← taken_append, List.singleton_append]

theorem sent_cons (e : ε) (es : List ε) : p.sent (e :: es) = p.sends e ++ p.sent es := by
  simp [sent]

end Party

namespace Link

variable {σ τ ε δ μ : Type}

structure State (σ τ μ : Type) where
  left : σ
  right : τ
  toRight : List μ
  toLeft : List μ
  deriving DecidableEq, Repr

/-- The labels of the party on the left. -/
def lefts (es : List (ε ⊕ δ)) : List ε := es.filterMap Sum.getLeft?

def rights (es : List (ε ⊕ δ)) : List δ := es.filterMap Sum.getRight?

@[simp] theorem lefts_nil : lefts ([] : List (ε ⊕ δ)) = [] := rfl

@[simp] theorem rights_nil : rights ([] : List (ε ⊕ δ)) = [] := rfl

@[simp] theorem lefts_append (es fs : List (ε ⊕ δ)) : lefts (es ++ fs) = lefts es ++ lefts fs :=
  List.filterMap_append

@[simp] theorem rights_append (es fs : List (ε ⊕ δ)) :
    rights (es ++ fs) = rights es ++ rights fs := List.filterMap_append

@[simp] theorem lefts_inl (e : ε) (es : List (ε ⊕ δ)) :
    lefts (.inl e :: es) = e :: lefts es := rfl

@[simp] theorem lefts_inr (d : δ) (es : List (ε ⊕ δ)) : lefts (.inr d :: es) = lefts es := rfl

@[simp] theorem rights_inl (e : ε) (es : List (ε ⊕ δ)) : rights (.inl e :: es) = rights es := rfl

@[simp] theorem rights_inr (d : δ) (es : List (ε ⊕ δ)) :
    rights (.inr d :: es) = d :: rights es := rfl

@[simp] theorem lefts_map_inl (es : List ε) : lefts (es.map .inl : List (ε ⊕ δ)) = es := by
  induction es with
  | nil => rfl
  | cons e rest ih => rw [List.map_cons, lefts_inl, ih]

@[simp] theorem lefts_map_inr (ds : List δ) : lefts (ds.map .inr : List (ε ⊕ δ)) = [] := by
  induction ds with
  | nil => rfl
  | cons d rest ih => rw [List.map_cons, lefts_inr, ih]

/-- A label in the run of the left party is a label of the run of both. -/
theorem lefts_eq_append {es : List (ε ⊕ δ)} {pre : List ε} {e : ε} {post : List ε}
    (h : lefts es = pre ++ e :: post) :
    ∃ pre' post', es = pre' ++ .inl e :: post' ∧ lefts pre' = pre := by
  induction es generalizing pre with
  | nil => simp at h
  | cons x rest ih =>
      cases x with
      | inr d =>
          rw [lefts_inr] at h
          obtain ⟨pre', post', rfl, hpre⟩ := ih h
          exact ⟨.inr d :: pre', post', rfl, hpre⟩
      | inl x =>
          rw [lefts_inl] at h
          cases pre with
          | nil =>
              obtain ⟨rfl, -⟩ := List.cons.inj h
              exact ⟨[], rest, rfl, rfl⟩
          | cons first pre =>
              obtain ⟨rfl, hrest⟩ := List.cons.inj h
              obtain ⟨pre', post', rfl, hpre⟩ := ih hrest
              exact ⟨.inl x :: pre', post', rfl, by rw [lefts_inl, hpre]⟩

variable [DecidableEq μ]

/-- What is left of a line when a message is taken off it. -/
def pull : Option μ → List μ → Option (List μ)
  | none, line => some line
  | some _, [] => none
  | some m, m' :: rest => if m = m' then some rest else none

theorem pull_eq_some_iff {m : Option μ} {line rest : List μ} :
    pull m line = some rest ↔ line = m.toList ++ rest := by
  cases m with
  | none => simp [pull]
  | some m =>
      cases line with
      | nil => simp [pull]
      | cons m' line =>
          by_cases h : m = m'
          · simp [pull, h]
          · have hne : ¬ m' = m := fun heq => h heq.symm
            simp [pull, h, hne]

def step (p : Party σ ε μ) (q : Party τ δ μ) (s : State σ τ μ) : ε ⊕ δ → Option (State σ τ μ)
  | .inl e =>
      (p.step s.left e).bind fun left =>
        (pull (p.takes e) s.toLeft).map fun toLeft =>
          { s with left := left, toLeft := toLeft, toRight := s.toRight ++ p.sends e }
  | .inr d =>
      (q.step s.right d).bind fun right =>
        (pull (q.takes d) s.toRight).map fun toRight =>
          { s with right := right, toRight := toRight, toLeft := s.toLeft ++ q.sends d }

/-- Both parties and their lines. -/
def link (p : Party σ ε μ) (q : Party τ δ μ) : Machine (State σ τ μ) (ε ⊕ δ) where
  init := ⟨p.init, q.init, [], []⟩
  step := step p q

variable {p : Party σ ε μ} {q : Party τ δ μ} {s s' : State σ τ μ}

/-! ### What a step can do -/

theorem step_left {e : ε} :
    (link p q).step s (.inl e) = some s' ↔
      p.step s.left e = some s'.left ∧ s.toLeft = (p.takes e).toList ++ s'.toLeft ∧
        s'.toRight = s.toRight ++ p.sends e ∧ s'.right = s.right := by
  simp only [link, step, Option.bind_eq_some_iff, Option.map_eq_some_iff, pull_eq_some_iff]
  refine ⟨?_, ?_⟩
  · rintro ⟨left, hstep, toLeft, hline, rfl⟩
    exact ⟨hstep, hline, rfl, rfl⟩
  · intro ⟨hstep, hline, hright, hsame⟩
    refine ⟨s'.left, hstep, s'.toLeft, hline, ?_⟩
    rw [← hright, ← hsame]

theorem step_right {d : δ} :
    (link p q).step s (.inr d) = some s' ↔
      q.step s.right d = some s'.right ∧ s.toRight = (q.takes d).toList ++ s'.toRight ∧
        s'.toLeft = s.toLeft ++ q.sends d ∧ s'.left = s.left := by
  simp only [link, step, Option.bind_eq_some_iff, Option.map_eq_some_iff, pull_eq_some_iff]
  refine ⟨?_, ?_⟩
  · rintro ⟨right, hstep, toRight, hline, rfl⟩
    exact ⟨hstep, hline, rfl, rfl⟩
  · intro ⟨hstep, hline, hleft, hsame⟩
    refine ⟨s'.right, hstep, s'.toRight, hline, ?_⟩
    rw [← hleft, ← hsame]

/-! ### The runs of the parties -/

/-- What a run of a link is to its parties. -/
structure InTransit (p : Party σ ε μ) (q : Party τ δ μ) (es : List (ε ⊕ δ))
    (s : State σ τ μ) : Prop where
  left : p.run (lefts es) = some s.left
  right : q.run (rights es) = some s.right
  toRight : p.sent (lefts es) = q.taken (rights es) ++ s.toRight
  toLeft : q.sent (rights es) = p.taken (lefts es) ++ s.toLeft

/-- **Each party runs on its own, and nothing is lost, repeated or reordered on the way.** -/
theorem inTransit_run : ∀ es s, (link p q).run es = some s → InTransit p q es s := by
  refine Machine.run_induction ⟨rfl, rfl, rfl, rfl⟩ ?_
  intro es s e s' _ ih hse
  cases e with
  | inl e =>
      obtain ⟨hstep, hline, hright, hsame⟩ := step_left.mp hse
      have hlefts : lefts (es ++ [.inl e]) = lefts es ++ [e] := by simp
      have hrights : rights (es ++ [.inl e]) = rights es := by simp
      refine ⟨?_, ?_, ?_, ?_⟩
      · rw [hlefts]
        exact p.run_snoc_eq_some.mpr ⟨s.left, ih.left, hstep⟩
      · rw [hrights, hsame]
        exact ih.right
      · rw [hlefts, hrights, p.sent_append, p.sent_singleton, ih.toRight, hright,
          List.append_assoc]
      · rw [hlefts, hrights, p.taken_append, p.taken_singleton, ih.toLeft, hline,
          List.append_assoc]
  | inr d =>
      obtain ⟨hstep, hline, hleft, hsame⟩ := step_right.mp hse
      have hlefts : lefts (es ++ [.inr d]) = lefts es := by simp
      have hrights : rights (es ++ [.inr d]) = rights es ++ [d] := by simp
      refine ⟨?_, ?_, ?_, ?_⟩
      · rw [hlefts, hsame]
        exact ih.left
      · rw [hrights]
        exact q.run_snoc_eq_some.mpr ⟨s.right, ih.right, hstep⟩
      · rw [hlefts, hrights, q.taken_append, q.taken_singleton, ih.toRight, hline,
          List.append_assoc]
      · rw [hlefts, hrights, q.sent_append, q.sent_singleton, ih.toLeft, hleft,
          List.append_assoc]

/-! ### What the parties can do -/

/-- Steps of the left party that take just the front of its line. -/
theorem runFrom_left {es : List ε} {left : σ} {rest : List μ}
    (h : p.runFrom s.left es = some left) (hline : s.toLeft = p.taken es ++ rest) :
    (link p q).runFrom s (es.map .inl) =
      some { s with left := left, toLeft := rest, toRight := s.toRight ++ p.sent es } := by
  induction es generalizing s with
  | nil =>
      obtain rfl : s.left = left := Option.some.inj h
      obtain rfl : s.toLeft = rest := by simpa [Party.taken] using hline
      simp [Machine.runFrom, Party.sent]
  | cons e es ih =>
      obtain ⟨next, hstep, hrest⟩ := Option.bind_eq_some_iff.mp h
      rw [p.taken_cons, List.append_assoc] at hline
      have hlink : (link p q).step s (.inl e) =
          some { s with
            left := next, toLeft := p.taken es ++ rest, toRight := s.toRight ++ p.sends e } :=
        step_left.mpr ⟨hstep, hline, rfl, rfl⟩
      rw [List.map_cons, Machine.runFrom, hlink, Option.bind_some,
        ih (s := { s with
          left := next, toLeft := p.taken es ++ rest, toRight := s.toRight ++ p.sends e })
          hrest rfl,
        p.sent_cons, List.append_assoc]

/-- Steps of the right party that take just the front of its line. -/
theorem runFrom_right {ds : List δ} {right : τ} {rest : List μ}
    (h : q.runFrom s.right ds = some right) (hline : s.toRight = q.taken ds ++ rest) :
    (link p q).runFrom s (ds.map .inr) =
      some { s with right := right, toRight := rest, toLeft := s.toLeft ++ q.sent ds } := by
  induction ds generalizing s with
  | nil =>
      obtain rfl : s.right = right := Option.some.inj h
      obtain rfl : s.toRight = rest := by simpa [Party.taken] using hline
      simp [Machine.runFrom, Party.sent]
  | cons d ds ih =>
      obtain ⟨next, hstep, hrest⟩ := Option.bind_eq_some_iff.mp h
      rw [q.taken_cons, List.append_assoc] at hline
      have hlink : (link p q).step s (.inr d) =
          some { s with
            right := next, toRight := q.taken ds ++ rest, toLeft := s.toLeft ++ q.sends d } :=
        step_right.mpr ⟨hstep, hline, rfl, rfl⟩
      rw [List.map_cons, Machine.runFrom, hlink, Option.bind_some,
        ih (s := { s with
          right := next, toRight := q.taken ds ++ rest, toLeft := s.toLeft ++ q.sends d })
          hrest rfl,
        q.sent_cons, List.append_assoc]

end Link

end WebrtcEchoes
