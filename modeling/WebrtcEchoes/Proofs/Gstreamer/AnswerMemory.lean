/-
The answers of all requests stay in memory.

`addMember_grows` and `buildAnswer_grows` say what one request does to the forest of items: it
loses no item, whatever the allocator refuses, and the object for the answer is a new root.
There is one for every request but those for which the allocator refuses the first item.
-/
import Mathlib.Data.List.ReduceOption
import WebrtcEchoes.Gstreamer.AnswerMemory
import WebrtcEchoes.Proofs.Gstreamer.CJson.Sessions

namespace WebrtcEchoes.Gstreamer.CJson

open Handler Memory

variable {ν : Type} [Zero ν] {A : Allocator} {m : Memory ν} {F F' : Forest Loc (Label ν)}

/-- Every item is still there. -/
def Grows (F F' : Forest Loc (Label ν)) : Prop := ∀ l, F.Node l → F'.Node l

/-- An object in hand, if there was memory for it. -/
def Answer (F : Forest Loc (Label ν)) (answer : Option Loc) : Prop :=
  ∀ a ∈ answer, F.Root a ∧ Container F a

omit [Zero ν] in
theorem Grows.trans {F'' : Forest Loc (Label ν)} (h : Grows F F') (h' : Grows F' F'') :
    Grows F F'' := fun l hl => h' l (h l hl)

omit [Zero ν] in
theorem Answer.add (h : Represents m F) {answer : Option Loc} (hanswer : Answer F answer) {x : Loc}
    (hnode : ¬ F.Node x) (d : Label ν) : Answer (F.add x d) answer := by
  intro a ha
  obtain ⟨hroot, hcontainer⟩ := hanswer a ha
  refine ⟨⟨Forest.node_add_iff.mpr (.inr hroot.1), fun p hp => ?_⟩,
    (h.container_add hcontainer hnode d).1⟩
  exact hroot.2 p (h.proper.kids_add hnode d ▸ hp)

omit [Zero ν] in
/-- The object takes another item below it. -/
theorem Answer.named {a x : Loc} (hanswer : Answer F (some a)) (hx : F.Node x) (hax : a ≠ x)
    (d : Label ν) : Answer ((F.setLabel x d).setKids a (F.kids a ++ [x])) (some a) := by
  rintro a' ⟨⟩
  obtain ⟨hroot, hcontainer⟩ := hanswer a rfl
  refine ⟨⟨(Forest.node_setLabel_iff hx).mpr hroot.1, fun p hp => ?_⟩, ?_⟩
  · rw [Forest.mem_kids_setKids] at hp
    split at hp
    · rcases List.mem_append.mp hp with hp | hp
      · exact hroot.2 a hp
      · exact hax (List.mem_singleton.mp hp)
    · exact hroot.2 p hp
  · simpa [Container, Forest.setKids, Forest.setLabel, hax] using hcontainer

theorem addMember_grows (h : Represents m F) {answer : Option Loc} (hanswer : Answer F answer)
    (name text : Bytes) :
    ∃ m' F', addMember A answer name text m = some m' ∧ Represents m' F' ∧ Grows F F' ∧
      Answer F' answer := by
  rcases h.createText (A := A) .string text with
    ⟨m₁, hcreate, -, h₁⟩ | ⟨m₁, x, hcreate, -, hnode, h₁⟩
  · refine ⟨m₁, F, ?_, h₁, fun l hl => hl, hanswer⟩
    simp [addMember, cJSONCreateString, hcreate, addItemToObject]
  have hgrows : Grows F
      (F.add x { (Label.ofKind .string : Label ν) with valuestring := some text }) :=
    fun l hl => Forest.node_add_iff.mpr (.inr hl)
  have hanswer₁ := hanswer.add h hnode
    { (Label.ofKind .string : Label ν) with valuestring := some text }
  rcases answer with _ | a
  · refine ⟨m₁, _, ?_, h₁, hgrows, hanswer₁⟩
    simp [addMember, cJSONCreateString, hcreate, addItemToObject]
  obtain ⟨hroot, hcontainer⟩ := hanswer a rfl
  have hax : a ≠ x := by
    rintro rfl
    exact hnode hroot.1
  obtain ⟨hcontainer₁, hapart⟩ := h.container_add hcontainer hnode
    { (Label.ofKind .string : Label ν) with valuestring := some text }
  have hx := h.proper.root_add hnode
    { (Label.ofKind .string : Label ν) with valuestring := some text }
  rcases h₁.addToObject (A := A) hcontainer₁ hx hapart name false with
    ⟨m₂, hadd, -, h₂⟩ | ⟨-, -, m₂, hadd, h₂⟩
  · refine ⟨m₂, _, ?_, h₂, fun l hl => ?_, hanswer₁.named hx.1 hax _⟩
    · simp [addMember, cJSONCreateString, hcreate, hadd]
    · exact (Forest.node_setLabel_iff hx.1).mpr (hgrows l hl)
  · refine ⟨m₂, _, ?_, h₂, hgrows, hanswer₁⟩
    simp [addMember, cJSONCreateString, hcreate, hadd]

theorem buildAnswer_grows (h : Represents m F) (sdp : Bytes) :
    ∃ m' answer F', buildAnswer A sdp m = some (m', answer) ∧ Represents m' F' ∧ Grows F F' ∧
      (answer = none ↔ m.Refuses A 1) ∧ ∀ a ∈ answer, ¬ F.Node a ∧ F'.Root a := by
  obtain ⟨m₁, answer, F₁, hcreate, h₁, hgrows, hnone, hanswer, hnew⟩ : ∃ m₁ answer F₁,
      cJSONCreateObject A m = some (m₁, answer) ∧ Represents m₁ F₁ ∧ Grows F F₁ ∧
        (answer = none ↔ m.Refuses A 1) ∧ Answer F₁ answer ∧ ∀ a ∈ answer, ¬ F.Node a := by
    rcases h.createItem (A := A) .object 0 with
      ⟨m₁, hcreate, hrefuses, h₁⟩ | ⟨m₁, a, hcreate, hgranted, hnode, h₁⟩
    · exact ⟨m₁, none, F, hcreate, h₁, fun l hl => hl, iff_of_true rfl hrefuses,
        by simp [Answer], by simp⟩
    · refine ⟨m₁, some a, _, hcreate, h₁, fun l hl => Forest.node_add_iff.mpr (.inr hl),
        iff_of_false (by simp) hgranted.not_refuses, ?_, ?_⟩
      · rintro a' ⟨⟩
        exact ⟨h.proper.root_add hnode _, _, by simp [Forest.add]; rfl, rfl⟩
      · rintro a' ⟨⟩
        exact hnode
  obtain ⟨m₂, F₂, htype, h₂, hgrows₂, hanswer₂⟩ :=
    addMember_grows (A := A) h₁ hanswer (ascii "type") (ascii "answer")
  obtain ⟨m₃, F₃, hsdp, h₃, hgrows₃, hanswer₃⟩ :=
    addMember_grows (A := A) h₂ hanswer₂ (ascii "sdp") sdp
  refine ⟨m₃, answer, F₃, ?_, h₃, (hgrows.trans hgrows₂).trans hgrows₃, hnone, fun a ha => ?_⟩
  · simp [buildAnswer, hcreate, htype, hsdp]
  · exact ⟨hnew a ha, (hanswer₃ a ha).1⟩

/-- A request is left without an object exactly where the allocator refuses the memory for it,
behind the requests in front of it. -/
def BuiltUnlessRefused (A : Allocator) (m : Memory ν) (sdps : List Bytes)
    (answers : List (Option Loc)) : Prop :=
  ∀ pre sdp post, sdps = pre ++ sdp :: post →
    ∃ m₀ answers₀, buildAnswers A pre m = some (m₀, answers₀) ∧
      (answers[pre.length]? = some none ↔ m₀.Refuses A 1)

/-- The requests from some point on. -/
theorem buildAnswers_grows (h : Represents m F) (sdps : List Bytes) :
    ∃ m' answers F', buildAnswers A sdps m = some (m', answers) ∧ Represents m' F' ∧ Grows F F' ∧
      answers.length = sdps.length ∧ BuiltUnlessRefused A m sdps answers ∧
        answers.reduceOption.Nodup ∧ ∀ a ∈ answers.reduceOption, ¬ F.Node a ∧ F'.Node a := by
  induction sdps generalizing m F with
  | nil =>
      refine ⟨m, [], F, rfl, h, fun l hl => hl, rfl, ?_, by simp, by simp⟩
      intro pre sdp post hsplit
      simp at hsplit
  | cons sdp rest ih =>
      obtain ⟨m₁, answer, F₁, hbuild, h₁, hgrows, hnone, hanswer⟩ :=
        buildAnswer_grows (A := A) h sdp
      obtain ⟨m₂, answers, F₂, hrest, h₂, hgrows₂, hlength, hbuilt, hnodup, hanswers⟩ := ih h₁
      have hbuilt' : BuiltUnlessRefused A m (sdp :: rest) (answer :: answers) := by
        intro pre sdp' post hsplit
        cases pre with
        | nil => exact ⟨m, [], rfl, by simpa using hnone⟩
        | cons sdp'' pre =>
            obtain ⟨rfl, htail⟩ := List.cons.inj hsplit
            obtain ⟨m₀, answers₀, hpre, hiff⟩ := hbuilt pre sdp' post htail
            refine ⟨m₀, answer :: answers₀, ?_, by simpa using hiff⟩
            simp [buildAnswers, hbuild, hpre]
      refine ⟨m₂, answer :: answers, F₂, by simp [buildAnswers, hbuild, hrest], h₂,
        hgrows.trans hgrows₂, by simp [hlength], hbuilt', ?_⟩
      rcases answer with _ | a
      · refine ⟨hnodup, fun a ha => ⟨fun hF => ?_, (hanswers a ha).2⟩⟩
        exact (hanswers a ha).1 (hgrows a hF)
      · obtain ⟨hnew, hroot⟩ := hanswer a rfl
        rw [List.reduceOption_cons_of_some]
        refine ⟨List.nodup_cons.mpr ⟨fun ha => (hanswers a ha).1 hroot.1, hnodup⟩, fun b hb => ?_⟩
        rcases List.mem_cons.mp hb with rfl | hb
        · exact ⟨hnew, hgrows₂ b hroot.1⟩
        · exact ⟨fun hF => (hanswers b hb).1 (hgrows b hF), (hanswers b hb).2⟩

/-- **Every answer leaks**: whatever the requests and the allocator, the handler builds the
answers without a fault, one object for every request for which the allocator does not refuse
it, and the objects are distinct and all still there. -/
theorem answers_stay (A : Allocator) (sdps : List Bytes) :
    ∃ (m : Memory ν) (answers : List (Option Loc)),
      buildAnswers A sdps Memory.empty = some (m, answers) ∧ answers.length = sdps.length ∧
        BuiltUnlessRefused A (Memory.empty : Memory ν) sdps answers ∧
        answers.reduceOption.Nodup ∧ ∀ a ∈ answers.reduceOption, m.live a = true := by
  obtain ⟨m, answers, F, hbuild, h, -, hlength, hbuilt, hnodup, hanswers⟩ :=
    buildAnswers_grows (A := A) (Represents.empty (ν := ν)) sdps
  exact ⟨m, answers, hbuild, hlength, hbuilt, hnodup,
    fun a ha => h.node_iff.mp (hanswers a ha).2⟩

end WebrtcEchoes.Gstreamer.CJson
