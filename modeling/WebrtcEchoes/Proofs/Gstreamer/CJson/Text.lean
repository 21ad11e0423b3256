/-
The text that is printed for an item, and what is read of it again.

The text is the text of a document, whose white space is that of the formatting, so it is
read by what is known of the texts of documents.  Two things change on the way: a number is
what its digits stand for, and one that is not finite is `null`.
-/
import WebrtcEchoes.Gstreamer.PrintBuffer
import WebrtcEchoes.Proofs.Gstreamer.CJson.Safety
import WebrtcEchoes.Proofs.Gstreamer.Handler

namespace WebrtcEchoes.Gstreamer.CJson

open Handler Json

variable {ν : Type} (libc : Libc ν)

mutual
/-- The text of an item at a depth. -/
def printed (format : Bool) : Nat → Value ν → Bytes
  | _, .null => ascii "null"
  | _, .bool false => ascii "false"
  | _, .bool true => ascii "true"
  | _, .number x => numberText libc x
  | _, .string text => printString text
  | depth, .array items => ascii "[" ++ (printedItems format (depth + 1) items ++ ascii "]")
  | depth, .object members =>
      ascii "\x7b" ++ (newline format ++ (printedMembers format (depth + 1) members ++
        ((if format then List.replicate depth 9 else []) ++ ascii "\x7d")))

def printedItems (format : Bool) : Nat → List (Value ν) → Bytes
  | _, [] => []
  | depth, item :: rest =>
      printed format depth item ++ ((if rest.isEmpty then [] else separator format) ++
        printedItems format depth rest)

def printedMembers (format : Bool) : Nat → List (Bytes × Value ν) → Bytes
  | _, [] => []
  | depth, m :: rest =>
      (if format then List.replicate depth 9 else []) ++ (printString m.1 ++
        (colon format ++ (printed format depth m.2 ++
          (comma rest.isEmpty ++ newline format ++ printedMembers format depth rest))))
end

mutual
/-- The item that is read of the text: numbers by their digits, and texts up to a NUL. -/
def reread : Value ν → Value ν
  | .null => .null
  | .bool b => .bool b
  | .number x => if libc.isFinite x then .number (libc.strtod (numberText libc x)) else .null
  | .string text => .string (cString text)
  | .array items => .array (rereadItems items)
  | .object members => .object (rereadMembers members)

def rereadItems : List (Value ν) → List (Value ν)
  | [] => []
  | item :: rest => reread item :: rereadItems rest

def rereadMembers : List (Bytes × Value ν) → List (Bytes × Value ν)
  | [] => []
  | m :: rest => (cString m.1, reread m.2) :: rereadMembers rest
end

theorem cString_cString (s : Bytes) : cString (cString s) = cString s := by
  refine List.takeWhile_eq_self_iff.mpr fun b hb => ?_
  exact decide_eq_true (noNul_cString s b hb)

/-! ### The white space of the formatting -/

def spaceIf (format : Bool) (w : Space) : Space := if format then w else []

theorem spaceIf_tabs (format : Bool) (depth : Nat) :
    Space.text (spaceIf format (List.replicate depth .tab)) =
      if format then List.replicate depth 9 else [] := by
  cases format with
  | false => rfl
  | true => exact List.map_replicate

theorem spaceIf_newline (format : Bool) :
    Space.text (spaceIf format [.newline]) = newline format := by
  cases format <;> rfl

theorem colon_eq (format : Bool) : colon format = 58 :: Space.text (spaceIf format [.tab]) := by
  cases format <;> rfl

theorem separator_eq (format : Bool) :
    separator format = 44 :: Space.text (spaceIf format [.space]) := by
  cases format <;> rfl

theorem space_append (w w' : Space) : Space.text (w ++ w') = w.text ++ w'.text :=
  List.map_append

/-! ### The document of the text -/

theorem numberText_doc (x : ν) : ∃ d : Doc, d.text = numberText libc x ∧
    seen libc d = reread libc (.number x) ∧ d.depth = 0 ∧ d.AllNumerals Short := by
  by_cases hx : libc.isFinite x = true
  · have hnumeral : ∃ n : Numeral, numberText libc x = n.text ∧ n.text.length ≤ 25 := by
      unfold numberText
      rw [if_pos hx]
      split
      · exact libc.format15_numeral x hx
      · exact libc.format17_numeral x hx
    obtain ⟨n, hn, hlen⟩ := hnumeral
    refine ⟨.number n, hn.symm, ?_, rfl, Nat.le_trans hlen (by decide)⟩
    rw [reread, if_pos hx, hn]
    rfl
  · refine ⟨.null, ?_, ?_, rfl, trivial⟩
    · rw [numberText, if_neg hx]
      rfl
    · rw [reread, if_neg hx]
      rfl

/-- An array with its items, from the list of them. -/
theorem printed_array (format : Bool) (depth : Nat) {items : List (Value ν)}
    (h : items = [] ∨ ∃ ds : Items, ds.text = printedItems libc format (depth + 1) items ∧
      seenItems libc ds = rereadItems libc items ∧ ds.depth = depthItems items ∧
        ds.AllNumerals Short) :
    ∃ d : Doc, d.text = printed libc format depth (.array items) ∧
      seen libc d = reread libc (.array items) ∧ d.depth = (Value.array items).depth ∧
        d.AllNumerals Short := by
  rcases h with rfl | ⟨ds, htext, hseen, hdepth, hshort⟩
  · exact ⟨.emptyArray [], rfl, rfl, rfl, trivial⟩
  · refine ⟨.array ds, ?_, ?_, ?_, hshort⟩
    · rw [printed, ← htext]
      rfl
    · rw [reread, ← hseen]
      rfl
    · rw [Doc.depth, hdepth, Value.depth]

theorem printed_object (format : Bool) (depth : Nat) {members : List (Bytes × Value ν)}
    (h : members = [] ∨ ∃ ds : Members,
      ds.text = newline format ++ (printedMembers libc format (depth + 1) members ++
        if format then List.replicate depth 9 else []) ∧
      seenMembers libc ds = rereadMembers libc members ∧ ds.depth = depthMembers members ∧
        ds.AllNumerals Short) :
    ∃ d : Doc, d.text = printed libc format depth (.object members) ∧
      seen libc d = reread libc (.object members) ∧ d.depth = (Value.object members).depth ∧
        d.AllNumerals Short := by
  rcases h with rfl | ⟨ds, htext, hseen, hdepth, hshort⟩
  · refine ⟨.emptyObject (spaceIf format [.newline] ++
      spaceIf format (List.replicate depth .tab)), ?_, rfl, rfl, trivial⟩
    rw [printed, printedMembers, Doc.text, space_append, spaceIf_newline, spaceIf_tabs,
      List.nil_append, List.append_assoc]
    rfl
  · refine ⟨.object ds, ?_, ?_, ?_, hshort⟩
    · rw [printed, Doc.text, htext]
      simp only [List.append_assoc]
      rfl
    · rw [reread, ← hseen]
      rfl
    · rw [Doc.depth, hdepth, Value.depth]

mutual
/-- What is printed for an item is the text of a document. -/
theorem exists_doc (format : Bool) : (v : Value ν) → ∀ depth : Nat,
    ∃ d : Doc, d.text = printed libc format depth v ∧ seen libc d = reread libc v ∧
      d.depth = v.depth ∧ d.AllNumerals Short
  | .null, depth => ⟨.null, rfl, rfl, rfl, trivial⟩
  | .bool false, depth => ⟨.bool false, rfl, rfl, rfl, trivial⟩
  | .bool true, depth => ⟨.bool true, rfl, rfl, rfl, trivial⟩
  | .number x, depth => numberText_doc libc x
  | .string text, depth => by
      refine ⟨.string (pieces (cString text)), (printString_eq text).symm, ?_, rfl,
        trivial⟩
      show Value.string (cString (stringBytes (pieces (cString text)))) = _
      rw [stringBytes_pieces, cString_cString]
      rfl
  | .array items, depth => by
      refine printed_array libc format depth ?_
      by_cases hitems : items = []
      · exact Or.inl hitems
      · obtain ⟨ds, htext, hds⟩ := exists_items format items hitems (depth + 1) []
        exact Or.inr ⟨ds, htext, hds⟩
  | .object members, depth => by
      refine printed_object libc format depth ?_
      by_cases hmembers : members = []
      · exact Or.inl hmembers
      · obtain ⟨ds, htext, hds⟩ := exists_members format members hmembers (depth + 1)
          (spaceIf format [.newline]) (spaceIf format (List.replicate depth .tab))
        rw [spaceIf_newline, spaceIf_tabs] at htext
        exact Or.inr ⟨ds, htext, hds⟩

theorem exists_items (format : Bool) : (items : List (Value ν)) → items ≠ [] →
    ∀ (depth : Nat) (before : Space),
    ∃ ds : Items, ds.text = before.text ++ printedItems libc format depth items ∧
      seenItems libc ds = rereadItems libc items ∧ ds.depth = depthItems items ∧
        ds.AllNumerals Short
  | [], hne, _, _ => absurd rfl hne
  | [item], _, depth, before => by
      obtain ⟨d, htext, hseen, hdepth, hshort⟩ := exists_doc format item depth
      refine ⟨.last before d [], ?_, ?_, ?_, hshort⟩
      · simp [Items.text, Space.text, printedItems, htext]
      · show [seen libc d] = _
        rw [hseen, rereadItems, rereadItems]
      · simp [Items.depth, depthItems, hdepth]
  | item :: next :: rest, _, depth, before => by
      obtain ⟨d, htext, hseen, hdepth, hshort⟩ := exists_doc format item depth
      obtain ⟨ds, htexts, hseens, hdepths, hshorts⟩ := exists_items format (next :: rest)
        (List.cons_ne_nil _ _) depth (spaceIf format [.space])
      refine ⟨.more before d [] ds, ?_, ?_, ?_, hshort, hshorts⟩
      · show _ = before.text ++ (printed libc format depth item ++
          (separator format ++ printedItems libc format depth (next :: rest)))
        rw [Items.text, htext, htexts, separator_eq]
        simp [Space.text]
      · show seen libc d :: seenItems libc ds = _
        rw [hseen, hseens]
        rfl
      · rw [Items.depth, hdepth, hdepths]
        rfl

theorem exists_members (format : Bool) : (members : List (Bytes × Value ν)) → members ≠ [] →
    ∀ (depth : Nat) (before after : Space),
    ∃ ds : Members,
      ds.text = before.text ++ (printedMembers libc format depth members ++ after.text) ∧
      seenMembers libc ds = rereadMembers libc members ∧ ds.depth = depthMembers members ∧
        ds.AllNumerals Short
  | [], hne, _, _, _ => absurd rfl hne
  | [m], _, depth, before, after => by
      obtain ⟨d, htext, hseen, hdepth, hshort⟩ := exists_doc format m.2 depth
      refine ⟨.last (before ++ spaceIf format (List.replicate depth .tab))
        (pieces (cString m.1)) [] (spaceIf format [.tab]) d
        (spaceIf format [.newline] ++ after), ?_, ?_, ?_, hshort⟩
      · rw [Members.text, htext, space_append, space_append, spaceIf_tabs, spaceIf_newline,
          ← printString_eq, printedMembers, printedMembers, colon_eq]
        simp [Space.text, comma]
      · show [(cString (stringBytes (pieces (cString m.1))), seen libc d)] = _
        rw [hseen, stringBytes_pieces, cString_cString, rereadMembers, rereadMembers]
      · simp [Members.depth, depthMembers, hdepth]
  | m :: next :: rest, _, depth, before, after => by
      obtain ⟨d, htext, hseen, hdepth, hshort⟩ := exists_doc format m.2 depth
      obtain ⟨ds, htexts, hseens, hdepths, hshorts⟩ := exists_members format (next :: rest)
        (List.cons_ne_nil _ _) depth (spaceIf format [.newline]) after
      refine ⟨.more (before ++ spaceIf format (List.replicate depth .tab))
        (pieces (cString m.1)) [] (spaceIf format [.tab]) d [] ds, ?_, ?_, ?_,
        hshort, hshorts⟩
      · show _ = before.text ++ ((if format then List.replicate depth 9 else []) ++
          (printString m.1 ++ (colon format ++ (printed libc format depth m.2 ++
            (ascii "," ++ newline format ++
              printedMembers libc format depth (next :: rest))))) ++ after.text)
        rw [Members.text, htext, htexts, space_append, spaceIf_tabs, spaceIf_newline,
          ← printString_eq, colon_eq, show ascii "," = [44] from rfl]
        simp [Space.text]
      · show (cString (stringBytes (pieces (cString m.1))), seen libc d) ::
          seenMembers libc ds = _
        rw [hseen, hseens, stringBytes_pieces, cString_cString]
        rfl
      · rw [Members.depth, hdepth, hdepths]
        rfl
end

/-! ### Reading the text again -/

theorem stops_nil : Stops [] := fun _ hb => nomatch hb

theorem parse_printed_item (format : Bool) (v : Value ν) :
    parse libc (printed libc format 0 v) =
      if v.depth ≤ nestingLimit then some (reread libc v) else none := by
  obtain ⟨d, htext, hseen, hdepth, hshort⟩ := exists_doc libc format v 0
  have hparse := parse_text libc false [] hshort stops_nil
  rw [within_item, hseen, hdepth] at hparse
  rw [← htext, ← hparse]
  simp [Space.text]

/-- The number is finite, and its digits stand for it. -/
def GivenBack (x : ν) : Prop := libc.isFinite x = true ∧ libc.strtod (numberText libc x) = x

theorem reread_number_iff (x : ν) : reread libc (.number x) = .number x ↔ GivenBack libc x := by
  rw [reread]
  by_cases hx : libc.isFinite x = true
  · rw [if_pos hx, Value.number.injEq]
    exact ⟨fun h => ⟨hx, h⟩, fun h => h.2⟩
  · rw [if_neg hx]
    exact iff_of_false (fun h => nomatch h) fun h => hx h.1

theorem cString_eq_self {text : Bytes} (h : NoNul text) : cString text = text :=
  List.takeWhile_eq_self_iff.mpr fun b hb => decide_eq_true (h b hb)

mutual
/-- An item without a NUL comes back just when each of its numbers does. -/
theorem reread_eq_iff : (v : Value ν) → v.AllTexts NoNul →
    (reread libc v = v ↔ v.AllNumbers (GivenBack libc))
  | .null, _ => iff_of_true rfl trivial
  | .bool _, _ => iff_of_true rfl trivial
  | .number x, _ => reread_number_iff libc x
  | .string text, h => by
      refine iff_of_true ?_ trivial
      rw [reread, cString_eq_self h]
  | .array items, h => by
      rw [reread, Value.array.injEq]
      exact rereadItems_eq_iff items h
  | .object members, h => by
      rw [reread, Value.object.injEq]
      exact rereadMembers_eq_iff members h

theorem rereadItems_eq_iff : (items : List (Value ν)) → allTextsItems NoNul items →
    (rereadItems libc items = items ↔ allNumbersItems (GivenBack libc) items)
  | [], _ => iff_of_true rfl trivial
  | item :: rest, h => by
      rw [rereadItems, List.cons.injEq]
      exact and_congr (reread_eq_iff item h.1) (rereadItems_eq_iff rest h.2)

theorem rereadMembers_eq_iff : (members : List (Bytes × Value ν)) →
    allTextsMembers NoNul members →
    (rereadMembers libc members = members ↔ allNumbersMembers (GivenBack libc) members)
  | [], _ => iff_of_true rfl trivial
  | m :: rest, h => by
      obtain ⟨name, item⟩ := m
      rw [rereadMembers, List.cons.injEq, Prod.mk.injEq]
      refine and_congr ?_ (rereadMembers_eq_iff rest h.2)
      rw [← reread_eq_iff item h.1.2]
      exact and_iff_right (cString_eq_self h.1.1)
end

/-- An item that was read is nested within the limit and holds no NUL. -/
theorem accepted_of_parse {value : Bytes} {v : Value ν} (h : parse libc value = some v) :
    Accepted v := by
  have hsound := parseWithLengthOpts_sound libc (terminated_cString value) false
  unfold parse parseWithOpts at h
  cases hp : parseWithLengthOpts libc (cString value ++ [0]) false with
  | done x rest =>
      rw [hp] at h hsound
      obtain rfl : x = v := Option.some.inj h
      exact readable_zero hsound.2
  | failed => rw [hp] at h; cases h
  | outOfBounds => rw [hp] at h; cases h
  | outOfFuel => rw [hp] at h; cases h

end WebrtcEchoes.Gstreamer.CJson
