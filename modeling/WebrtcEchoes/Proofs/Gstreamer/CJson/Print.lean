/-
The printer writes the text of its item, and nothing else.

Each function is put together from the steps of the buffer, so that what is written is the
text of the item and what is asked for is what the text takes.  From it follow what the
callers are handed out, and what is read of it again.
-/
import WebrtcEchoes.Proofs.Gstreamer.CJson.PrintBuffer

namespace WebrtcEchoes.Gstreamer.CJson

open Handler Json

section Allocation

variable {allocates : Nat → Bool}

/-! ### Strings and numbers -/

theorem escape_length (b : UInt8) : (escape b).length = 1 +
    (if b = 34 ∨ b = 92 ∨ b = 8 ∨ b = 12 ∨ b = 10 ∨ b = 13 ∨ b = 9 then 1
      else if b < 32 then 5 else 0) := by
  have hall : ∀ n : Fin 256, (escape (UInt8.ofNat n)).length = 1 +
      (if UInt8.ofNat n = 34 ∨ UInt8.ofNat n = 92 ∨ UInt8.ofNat n = 8 ∨ UInt8.ofNat n = 12 ∨
          UInt8.ofNat n = 10 ∨ UInt8.ofNat n = 13 ∨ UInt8.ofNat n = 9 then 1
        else if UInt8.ofNat n < 32 then 5 else 0) := by
    decide +kernel
  have hb := hall ⟨b.toNat, b.toNat_lt⟩
  rwa [UInt8.ofNat_toNat] at hb

/-- The characters that are counted are those that are written. -/
theorem escapes_length (input : Bytes) :
    (input.flatMap escape).length = input.length + escapeCharacters input := by
  induction input with
  | nil => rfl
  | cons b rest ih =>
      rw [List.flatMap_cons, List.length_append, escape_length, ih, escapeCharacters,
        List.length_cons]
      omega

theorem escape_plain (b : UInt8) (h : (escape b).length = 1) : escape b = [b] := by
  have hall : ∀ n : Fin 256, (escape (UInt8.ofNat n)).length = 1 →
      escape (UInt8.ofNat n) = [UInt8.ofNat n] := by
    decide +kernel
  have hb := hall ⟨b.toNat, b.toNat_lt⟩
  rw [UInt8.ofNat_toNat] at hb
  exact hb h

/-- Without a character to escape, the bytes are copied. -/
theorem escapes_plain (input : Bytes) (h : escapeCharacters input = 0) :
    input.flatMap escape = input := by
  induction input with
  | nil => rfl
  | cons b rest ih =>
      rw [escapeCharacters, Nat.add_eq_zero_iff] at h
      have hlen := escape_length b
      rw [h.1] at hlen
      rw [List.flatMap_cons, escape_plain b hlen, ih h.2]
      rfl

theorem printStringPtr_prints {p : PrintBuffer} (h : Placed p) (text : Bytes) :
    Prints allocates p (printString text) (printStringPtr allocates text p) := by
  have hlen := escapes_length (cString text)
  have hneeded : (cString text).length + escapeCharacters (cString text) + 3 =
      (printString text).length + 1 := by
    simp only [printString, List.length_append, List.length_singleton]
    omega
  have hbody : (if escapeCharacters (cString text) = 0 then cString text
      else (cString text).flatMap escape) = (cString text).flatMap escape := by
    split
    · rename_i hzero
      exact (escapes_plain _ hzero).symm
    · rfl
  have hwrites : ∀ q : PrintBuffer, ((write 0 [34] q).andThen fun q =>
      (write 1 ((cString text).flatMap escape) q).andThen
        (write ((cString text).length + escapeCharacters (cString text) + 1) [34, 0])) =
      write 0 (printString text ++ [0]) q := by
    intro q
    have hclose : (cString text).length + escapeCharacters (cString text) + 1 =
        1 + ((cString text).flatMap escape).length := by
      rw [hlen]
      omega
    have hopen := write_write 0 [34] ((cString text).flatMap escape ++ [34, 0]) q
    have htext : printString text ++ [0] =
        [34] ++ ((cString text).flatMap escape ++ [34, 0]) := by
      simp [printString]
    rw [hclose, funext fun r => write_write 1 ((cString text).flatMap escape) [34, 0] r, htext]
    exact hopen
  have hput : Prints allocates p _ _ := put_prints h hneeded
  unfold printStringPtr
  simp only [hbody, hwrites]
  exact hput

variable {ν : Type} (libc : Libc ν)

theorem numberText_length (x : ν) : (numberText libc x).length ≤ 25 := by
  unfold numberText
  split
  · rename_i hx
    split
    · obtain ⟨n, hn, hlen⟩ := libc.format15_numeral x hx
      rw [hn]
      exact hlen
    · obtain ⟨n, hn, hlen⟩ := libc.format17_numeral x hx
      rw [hn]
      exact hlen
  · decide

/-- `print_number` moves the offset itself, and leaves a NUL there. -/
theorem printNumber_prints {p : PrintBuffer} (h : Placed p) (x : ν) :
    Prints allocates p (numberText libc x) (printNumber allocates libc x p) := by
  unfold printNumber
  simp only
  rw [if_neg (Nat.not_lt.mpr (numberText_length libc x))]
  exact emit_prints h

/-! ### Values -/

theorem noNul_printed (format : Bool) (depth : Nat) (v : Value ν) :
    NoNul (printed libc format depth v) := by
  obtain ⟨d, htext, -⟩ := exists_doc libc format v depth
  intro b hb
  rw [← htext] at hb
  exact Doc.ne_zero d hb

theorem noNul_printString (text : Bytes) : NoNul (printString text) := by
  intro b hb
  rw [printString_eq] at hb
  exact stringText_ne_zero hb

/-- The depth of the buffer is not looked at. -/
theorem moved_deeper {p q : PrintBuffer} {text : Bytes} (h : Moved p text q) :
    Moved { p with depth := p.depth + 1 } text { q with depth := q.depth + 1 } where
  front := h.front
  depth := congrArg (· + 1) h.depth
  noalloc := h.noalloc
  format := h.format
  fixed := h.fixed
  bounded := h.bounded
  written := h.written
  offset := h.offset
  placed := h.placed

theorem wrote_shallower {p q : PrintBuffer} {text : Bytes}
    (h : Wrote { p with depth := p.depth + 1 } text q) :
    Wrote p text { q with depth := q.depth - 1 } where
  front := h.front
  depth := by
    have hdepth := h.depth
    show q.depth - 1 = p.depth
    rw [hdepth]
    rfl
  noalloc := h.noalloc
  format := h.format
  fixed := h.fixed
  bounded := h.bounded
  written := h.written
  from_offset := h.from_offset
  to_offset := h.to_offset
  room := h.room

theorem andThen_assoc {α β γ : Type} (r : Printed α) (f : α → Printed β) (g : β → Printed γ) :
    (r.andThen f).andThen g = r.andThen fun x => (f x).andThen g := by
  cases r <;> rfl

/-- What is printed one level deeper, between its brackets. -/
theorem prints_nested {p : PrintBuffer} {text text' : Bytes} {r : Printed PrintBuffer}
    {loop last : PrintBuffer → Printed PrintBuffer} (h : Moves allocates p text r)
    (hf : ∀ q, Moved { p with depth := p.depth + 1 } text q →
      Prints allocates q text' ((loop q).andThen last)) :
    Prints allocates p (text ++ text') (r.andThen fun q =>
      (loop { q with depth := q.depth + 1 }).andThen fun q =>
        (last q).andThen fun q => .done { q with depth := q.depth - 1 }) := by
  cases r with
  | done q =>
      have hmoved := moved_deeper h
      have hq := hf _ hmoved
      show Prints allocates p _ ((loop { q with depth := q.depth + 1 }).andThen _)
      rw [← andThen_assoc]
      cases hr : (loop { q with depth := q.depth + 1 }).andThen last with
      | done r =>
          rw [hr] at hq
          exact wrote_shallower (moved_wrote hmoved hq)
      | failed =>
          rw [hr] at hq
          show Blocked allocates p (text ++ text').length
          rw [List.length_append]
          exact blocked_of_moved h hq
      | fault => rw [hr] at hq; exact hq
  | failed => exact blocked_mono (by rw [List.length_append]; omega) h
  | fault => exact h

theorem printTabs_moves {p : PrintBuffer} (h : Placed p) :
    Moves allocates p (if p.format then List.replicate p.depth 9 else [])
      (printTabs allocates p) := by
  unfold printTabs
  cases hp : p.format with
  | false => exact moved_nil h
  | true =>
      have hlen : (List.replicate p.depth (9 : UInt8)).length = p.depth := List.length_replicate
      have htabs : Moves allocates p (List.replicate p.depth 9)
          (emit allocates p.depth (List.replicate p.depth 9 ++ []) p.depth p) :=
        emit_moves _ [] h hlen.symm (by rw [List.append_nil, hlen]) (by rw [hlen]; omega)
      rw [List.append_nil] at htabs
      exact htabs

/-- The bracket that ends an object, behind its tabs. -/
theorem put_closing {p q : PrintBuffer} (h : Placed q) (hdepth : q.depth = p.depth + 1)
    (hformat : q.format = p.format) :
    Prints allocates q ((if p.format then List.replicate p.depth 9 else []) ++ ascii "\x7d")
      (put allocates (if q.format then q.depth + 1 else 2)
        ((if q.format then List.replicate (q.depth - 1) 9 else []) ++ ascii "\x7d" ++ [0]) q) := by
  rw [hformat, hdepth, Nat.add_sub_cancel]
  refine put_prints h ?_
  cases p.format with
  | false => rfl
  | true =>
      simp only [if_true, List.length_append, List.length_replicate]
      rfl

mutual
/-- `print_value` writes the text of its item. -/
theorem printValue_prints : (v : Value ν) → ∀ {p : PrintBuffer}, Placed p →
    Prints allocates p (printed libc p.format p.depth v) (printValue allocates libc v p)
  | .null, _, h => put_prints h rfl
  | .bool false, _, h => put_prints h rfl
  | .bool true, _, h => put_prints h rfl
  | .number x, _, h => printNumber_prints libc h x
  | .string text, _, h => printStringPtr_prints h text
  | .array items, p, h => by
      refine prints_nested (emit_moves (ascii "[") [] h rfl (by decide) (by decide))
        fun q hq => ?_
      have hitems := printItems_moves items hq.placed
      rw [hq.depth, hq.format] at hitems
      exact moves_prints hitems fun r hr => put_prints hr.placed rfl
  | .object members, p, h => by
      have hopen : Moves allocates p _ _ := emit_moves
        (ascii "\x7b" ++ newline p.format) [] h rfl
        (by rw [List.append_nil]; exact Nat.le_succ _) (Nat.le_refl _)
      rw [List.append_nil] at hopen
      rw [printed, ← List.append_assoc]
      refine prints_nested hopen fun q hq => ?_
      have hmembers := printMembers_moves members hq.placed
      rw [hq.depth, hq.format] at hmembers
      refine moves_prints hmembers fun r hr => ?_
      exact put_closing hr.placed (hr.depth.trans hq.depth) (hr.format.trans hq.format)

theorem printItems_moves : (items : List (Value ν)) → ∀ {p : PrintBuffer}, Placed p →
    Moves allocates p (printedItems libc p.format p.depth items)
      (printItems allocates libc items p)
  | [], _, h => moved_nil h
  | item :: rest, p, h => by
      refine prints_update (printValue_prints item h) (noNul_printed libc _ _ item)
        fun q hq => ?_
      have hseparator : Moves allocates q (if rest.isEmpty then [] else separator p.format)
          (if rest.isEmpty then .done q
            else emit allocates ((separator q.format).length + 1) (separator q.format ++ [0])
              (separator q.format).length q) := by
        rw [hq.format]
        cases rest.isEmpty with
        | true => exact moved_nil hq.placed
        | false =>
            exact emit_moves _ [0] hq.placed rfl (Nat.le_of_eq List.length_append)
              (Nat.le_refl _)
      refine moves_andThen hseparator fun r hr => ?_
      have hrest := printItems_moves rest hr.placed
      rw [hr.depth, hr.format, hq.depth, hq.format] at hrest
      exact hrest

theorem printMembers_moves : (members : List (Bytes × Value ν)) → ∀ {p : PrintBuffer},
    Placed p →
    Moves allocates p (printedMembers libc p.format p.depth members)
      (printMembers allocates libc members p)
  | [], _, h => moved_nil h
  | m :: rest, p, h => by
      refine moves_andThen (printTabs_moves h) fun q hq => ?_
      refine prints_update (printStringPtr_prints hq.placed m.1) (noNul_printString m.1)
        fun r hr => ?_
      have hformat : r.format = p.format := hr.format.trans hq.format
      have hdepth : r.depth = p.depth := hr.depth.trans hq.depth
      have hcolon : Moves allocates r _ _ := emit_moves (colon r.format) [] hr.placed rfl
        (by rw [List.append_nil]) (Nat.le_succ _)
      rw [List.append_nil] at hcolon
      rw [← hformat, ← hdepth]
      refine moves_andThen hcolon fun s hs => ?_
      rw [← hs.format, ← hs.depth]
      refine prints_update (printValue_prints m.2 hs.placed) (noNul_printed libc _ _ m.2)
        fun t ht => ?_
      rw [← ht.format, ← ht.depth]
      refine moves_andThen (emit_moves _ [0] ht.placed rfl (Nat.le_of_eq List.length_append)
        (Nat.le_refl _)) fun u hu => ?_
      rw [← hu.format, ← hu.depth]
      exact printMembers_moves rest hu.placed
end

/-! ### The texts that are handed out -/

theorem placed_start (cells : List Cell) (noalloc format : Bool) :
    Placed { cells := cells, offset := 0, depth := 0, noalloc := noalloc, format := format } := by
  cases cells with
  | nil => exact Or.inr ⟨rfl, rfl⟩
  | cons c rest => exact Or.inl (Nat.succ_pos _)

/--
**The memory of a caller is never left, and used as far as it goes.**

For every item, both formats and memory of any size and content, `cJSON_PrintPreallocated`
writes nothing outside of it.  It returns true just when the memory has two bytes more than
the text, and then the text and its NUL are at its front.
-/
theorem cJSONPrintPreallocated_spec (allocates : Nat → Bool) (item : Value ν)
    (buffer : List Cell) (format : Bool) (hsize : buffer.length ≤ intMax) :
    if (printed libc format 0 item).length + 2 ≤ buffer.length then
      ∃ cells, cJSONPrintPreallocated allocates libc item buffer format = .done cells ∧
        cells.length = buffer.length ∧ (printed libc format 0 item ++ [0]).map some <+: cells
    else cJSONPrintPreallocated allocates libc item buffer format = .failed := by
  have hprints : Prints allocates _ _ _ := printValue_prints libc item
    (placed_start buffer true format)
  unfold cJSONPrintPreallocated
  cases hr : printValue allocates libc item
      { cells := buffer, offset := 0, depth := 0, noalloc := true, format := format } with
  | done q =>
      rw [hr] at hprints
      have hlen : q.cells.length = buffer.length := hprints.fixed rfl
      have hroom : 0 + (printed libc format 0 item).length + 2 ≤ q.cells.length := hprints.room
      rw [if_pos (by omega)]
      exact ⟨q.cells, rfl, hlen, hprints.written⟩
  | failed =>
      rw [hr] at hprints
      have hblocked : intMax < 0 + (printed libc format 0 item).length + 2 ∨
          buffer.length < 0 + (printed libc format 0 item).length + 2 := hprints
      rw [if_neg (by omega)]
      rfl
  | fault =>
      rw [hr] at hprints
      exact hprints.elim

/-- `null` into six bytes. -/
theorem null_preallocated :
    ([none, none, none, none, none, none] : List Cell).length ≤ intMax ∧
      ∃ cells, cJSONPrintPreallocated (fun _ => false) digitLibc .null
          [none, none, none, none, none, none] true = .done cells ∧
        cells.length = 6 ∧ [some 110, some 117, some 108, some 108, some 0] <+: cells :=
  ⟨by decide, cJSONPrintPreallocated_spec digitLibc (fun _ => false) .null
    [none, none, none, none, none, none] true (by decide)⟩

/-- What a print function may rely on and has to give, for a text. -/
def HandedOut (allocates : Nat → Bool) (text : Bytes) : Printed (List Cell) → Prop
  | .done cells => cells = (text ++ [0]).map some ∧ text.length + 2 ≤ intMax
  | .failed => (∃ size, allocates size = false) ∨ intMax < text.length + 2
  | .fault => False

theorem print_handedOut (allocates : Nat → Bool) (format : Bool) (item : Value ν) :
    HandedOut allocates (printed libc format 0 item) (print allocates libc format item) := by
  have hprints : Prints allocates _ _ _ := printValue_prints libc item
    (placed_start (List.replicate 256 none) false format)
  have hnonul := noNul_printed libc format 0 item
  unfold print
  cases halloc : allocates 256 with
  | false => exact Or.inl ⟨256, halloc⟩
  | true =>
      simp only [if_true]
      cases hr : printValue allocates libc item
          { cells := List.replicate 256 none, offset := 0, depth := 0, noalloc := false
            format := format } with
      | done q =>
          rw [hr] at hprints
          have hroom : 0 + (printed libc format 0 item).length + 2 ≤ q.cells.length :=
            hprints.room
          have hbounded : q.cells.length ≤
              max (List.replicate 256 (none : Cell)).length intMax := hprints.bounded
          rw [List.length_replicate] at hbounded
          have hwritten : (printed libc format 0 item ++ [0]).map some <+: q.cells :=
            hprints.written
          show HandedOut allocates _ ((updateOffset q).andThen _)
          rw [updateOffset_wrote hprints hnonul]
          show HandedOut allocates _ (if allocates _ then _ else _)
          cases hshrink : allocates (0 + (printed libc format 0 item).length + 1) with
          | false => exact Or.inl ⟨_, hshrink⟩
          | true =>
              refine ⟨?_, ?_⟩
              · obtain ⟨rest, hrest⟩ := hwritten
                rw [← hrest]
                refine List.take_left' ?_
                rw [List.length_map, List.length_append, List.length_singleton]
                show _ = 0 + (printed libc format 0 item).length + 1
                omega
              · have hmax : max 256 intMax = intMax := by decide
                omega
      | failed =>
          rw [hr] at hprints
          have hblocked : intMax < 0 + (printed libc format 0 item).length + 2 ∨
              ∃ size, allocates size = false := hprints
          rw [Nat.zero_add] at hblocked
          exact hblocked.symm
      | fault =>
          rw [hr] at hprints
          exact hprints.elim

/--
**`cJSON_Print` and `cJSON_PrintUnformatted` hand out their texts, whatever memory there is.**

For every item, and with allocations that may fail at any size, nothing is written outside of
the buffer while it grows and no byte is read that was not written.  What is handed out is the
text with its NUL and nothing more; nothing is handed out only when an allocation fails or the
text, its NUL and one byte are more than `INT_MAX`.
-/
theorem print_spec (allocates : Nat → Bool) (item : Value ν) :
    HandedOut allocates (printed libc true 0 item) (cJSONPrint allocates libc item) ∧
      HandedOut allocates (printed libc false 0 item) (cJSONPrintUnformatted allocates libc item) :=
  ⟨print_handedOut libc allocates true item, print_handedOut libc allocates false item⟩

/-- The bytes of the memory that was handed out. -/
def cellBytes (cells : List Cell) : Bytes := cells.filterMap id

theorem cellBytes_text (text : Bytes) : cellBytes ((text ++ [0]).map some) = text ++ [0] := by
  unfold cellBytes
  rw [List.filterMap_map]
  exact List.filterMap_some

/-- The text that was handed out is read again. -/
theorem parse_handedOut {allocates : Nat → Bool} {format : Bool} {item : Value ν}
    {cells : List Cell} (h : print allocates libc format item = .done cells) :
    parse libc (cellBytes cells) =
      if item.depth ≤ nestingLimit then some (reread libc item) else none := by
  have hout := print_handedOut libc allocates format item
  rw [h] at hout
  have hstring : cString (printed libc format 0 item ++ [0]) = printed libc format 0 item := by
    rw [cString_append (noNul_printed libc format 0 item)]
    exact List.append_nil _
  have hparse := parse_printed_item libc format item
  unfold parse parseWithOpts at hparse ⊢
  rw [cString_eq_self (noNul_printed libc format 0 item)] at hparse
  rw [hout.1, cellBytes_text, hstring]
  exact hparse

/--
**What `cJSON_Print` or `cJSON_PrintUnformatted` hands out is read again.**

The text of every item is accepted when its arrays and objects are nested at most a thousand
deep: it is read as the item, except that a number is what its digits stand for, one that is
not finite is `null`, and texts end at their first NUL.  Nested deeper, the parser turns the
text of its own printer down.
-/
theorem print_read_again {allocates : Nat → Bool} {item : Value ν} {cells : List Cell}
    (h : cJSONPrint allocates libc item = .done cells ∨
      cJSONPrintUnformatted allocates libc item = .done cells) :
    parse libc (cellBytes cells) =
      if item.depth ≤ nestingLimit then some (reread libc item) else none := by
  rcases h with hformatted | hunformatted
  · exact parse_handedOut libc hformatted
  · exact parse_handedOut libc hunformatted

/--
**A text goes through the parser and the printer unchanged in what it says.**

When `cJSON_Parse` accepts a text, valid JSON or not, it accepts what is printed for the item
too, and the second item is the first just when every number in it is finite and is given back
by its digits.
-/
theorem reprinted_iff {allocates : Nat → Bool} {format : Bool} {value : Bytes} {item : Value ν}
    {cells : List Cell} (hparse : parse libc value = some item)
    (hprint : print allocates libc format item = .done cells) :
    parse libc (cellBytes cells) = some item ↔ item.AllNumbers (GivenBack libc) := by
  have haccepted := accepted_of_parse libc hparse
  rw [parse_handedOut libc hprint, if_pos haccepted.2, Option.some.injEq]
  exact reread_eq_iff libc item haccepted.1

/-- With memory for everything, a text that is not too long is handed out. -/
theorem print_of_room {format : Bool} {item : Value ν}
    (h : (printed libc format 0 item).length + 2 ≤ intMax) :
    print (fun _ => true) libc format item =
      .done ((printed libc format 0 item ++ [0]).map some) := by
  have hout := print_handedOut libc (fun _ => true) format item
  cases hp : print (fun _ => true) libc format item with
  | done cells =>
      rw [hp] at hout
      rw [hout.1]
  | failed =>
      rw [hp] at hout
      rcases hout with ⟨_, hfalse⟩ | hlong
      · cases hfalse
      · exact absurd h (Nat.not_le.mpr hlong)
  | fault =>
      rw [hp] at hout
      exact hout.elim

/-- `[7]`, printed with memory for everything. -/
theorem seven_printed : print (fun _ => true) digitLibc true (.array [.number 7]) =
    .done [some 91, some 55, some 93, some 0] :=
  print_of_room digitLibc (by decide)

theorem seven_read_again :
    parse digitLibc (cellBytes [some 91, some 55, some 93, some 0]) =
      some (.array [.number 7]) :=
  print_read_again digitLibc (.inl seven_printed)

theorem seven_reprinted :
    parse digitLibc [91, 55, 10, 93] = some (.array [.number 7]) ∧
      (parse digitLibc (cellBytes [some 91, some 55, some 93, some 0]) =
          some (.array [.number 7]) ↔
        (Value.array [.number 7]).AllNumbers (GivenBack digitLibc)) := by
  have hparse : parse digitLibc [91, 55, 10, 93] = some (.array [.number 7]) := rfl
  exact ⟨hparse, reprinted_iff digitLibc hparse seven_printed⟩

end Allocation

end WebrtcEchoes.Gstreamer.CJson
