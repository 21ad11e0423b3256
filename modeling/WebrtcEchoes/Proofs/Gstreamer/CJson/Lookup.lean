/-
Reading a list of children: how many there are, and which of them has a name.

The loops have as many steps as there were requests to the allocator, and each child took one.
-/
import WebrtcEchoes.Proofs.Gstreamer.CJson.Memory

namespace WebrtcEchoes.Gstreamer.CJson

open Handler Memory

variable {ν : Type} {m : Memory ν} {F : Forest Loc (Label ν)}

theorem mem_of_found {name : Bytes} {caseSensitive : Bool} {xs : List Loc} {x : Loc}
    (h : found F name caseSensitive xs = some x) : x ∈ xs := by
  have hmem := List.mem_of_find?_eq_some h
  cases caseSensitive with
  | false => exact hmem
  | true => exact (List.takeWhile_sublist _).subset hmem

namespace Represents

/-- A name can be read. -/
theorem textAt_name (h : Represents m F) {x : Loc} (hx : m.live x = true) {string : TextPtr}
    (hstring : (m.item x).string = some string) : m.textAt string = nameOf F x := by
  rw [nameOf, h.label_eq hx, Option.bind_some, Memory.label, hstring, Option.bind_some]

theorem nameOf_ne_none (h : Represents m F) {x : Loc} (hx : m.live x = true) {string : TextPtr}
    (hstring : (m.item x).string = some string) : nameOf F x ≠ none := by
  rw [← h.textAt_name hx hstring]
  cases string with
  | constant text => simp
  | block t =>
      refine h.texts.held hx (List.mem_append_right _ ?_)
      have hconst : (m.item x).stringIsConst = false := by
        by_contra hconst
        exact (h.texts.sound hx).const t (by simpa using hconst) hstring
      simp [hconst, hstring, TextPtr.blocks]

/-- No item has more children than there were requests. -/
theorem length_kids_le (h : Represents m F) (p : Loc) : (F.kids p).length ≤ m.asked := by
  obtain ⟨s, hs, hcard⟩ := h.bounded
  rw [← List.toFinset_card_of_nodup (h.proper.nodup p)]
  refine (Finset.card_le_card fun x hx => ?_).trans hcard
  exact hs x (h.live_of_mem_kids (List.mem_toFinset.mp hx))

theorem countFrom_eq {xs : List Loc} (hlive : ∀ x ∈ xs, m.live x = true)
    (hnext : Follows m.next xs none) {fuel : ℕ} (hfuel : xs.length ≤ fuel) :
    countFrom m fuel xs.head? = some xs.length := by
  induction xs generalizing fuel with
  | nil => simp [countFrom]
  | cons x rest ih =>
      obtain ⟨hx, hrest⟩ := hnext
      obtain ⟨fuel, rfl⟩ : ∃ n, fuel = n + 1 := ⟨fuel - 1, by simp at hfuel; omega⟩
      have hcount := ih (fun y hy => hlive y (by simp [hy])) hrest (by simpa using hfuel)
      have hnext : m.next x = rest.head? := by simpa using hx
      simp [countFrom, deref_live (hlive x (by simp)), hnext, hcount]

theorem findFrom_eq (h : Represents m F) (name : Bytes) (caseSensitive : Bool) {xs : List Loc}
    (hlive : ∀ x ∈ xs, m.live x = true) (hnext : Follows m.next xs none) {fuel : ℕ}
    (hfuel : xs.length ≤ fuel) :
    findFrom m name caseSensitive fuel xs.head? = some (found F name caseSensitive xs) := by
  induction xs generalizing fuel with
  | nil => cases caseSensitive <;> simp [findFrom, found, searched]
  | cons x rest ih =>
      obtain ⟨hx, hrest⟩ := hnext
      obtain ⟨fuel, rfl⟩ : ∃ n, fuel = n + 1 := ⟨fuel - 1, by simp at hfuel; omega⟩
      have hfind := ih (fun y hy => hlive y (by simp [hy])) hrest (by simpa using hfuel)
      have hnext : m.next x = rest.head? := by simpa using hx
      have hxlive := hlive x (by simp)
      cases hstring : (m.item x).string with
      | none =>
          have hname : nameOf F x = none := by
            rw [nameOf, h.label_eq hxlive]
            simp [Memory.label, hstring]
          cases caseSensitive with
          | true => simp [findFrom, deref_live hxlive, hstring, found, searched, hname]
          | false =>
              simpa [findFrom, deref_live hxlive, hstring, found, searched, hname, hnext]
                using hfind
      | some string =>
          obtain ⟨text, htext⟩ := Option.ne_none_iff_exists'.mp (h.nameOf_ne_none hxlive hstring)
          have hread := (h.textAt_name hxlive hstring).trans htext
          have hsearched : searched F caseSensitive (x :: rest) =
              x :: searched F caseSensitive rest := by
            cases caseSensitive <;> simp [searched, htext]
          rw [found, hsearched, List.find?_cons, htext]
          cases hsame : sameName caseSensitive name text with
          | true => simp [findFrom, deref_live hxlive, hstring, hread, hsame]
          | false =>
              simpa [findFrom, deref_live hxlive, hstring, hread, hsame, hnext, found] using hfind

theorem cJSONGetArraySize_eq (h : Represents m F) {p : Loc} (hp : Container F p) :
    cJSONGetArraySize m (some p) = some (toInt (F.kids p).length) := by
  obtain ⟨hp, href⟩ := h.container_iff.mp hp
  have hcount := countFrom_eq (fun x hx => h.live_of_mem_kids hx) (h.siblings p).forth
    (h.length_kids_le p)
  simp [cJSONGetArraySize, deref_live hp, h.child hp href, hcount]

theorem getObjectItem_eq (h : Represents m F) {p : Loc} (hp : Container F p) (name : Bytes)
    (caseSensitive : Bool) :
    getObjectItem m (some p) (some (.constant name)) caseSensitive =
      some (found F name caseSensitive (F.kids p)) := by
  obtain ⟨hp, href⟩ := h.container_iff.mp hp
  have hfind := h.findFrom_eq name caseSensitive (fun x hx => h.live_of_mem_kids hx)
    (h.siblings p).forth (h.length_kids_le p)
  simp [getObjectItem, deref_live hp, h.child hp href, hfind]

end Represents

end WebrtcEchoes.Gstreamer.CJson
