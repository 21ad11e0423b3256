/-
For which numbers of seconds the option `--timeout` means what it says.

As long as the product is a number of milliseconds that fits into an `int`, both programs
wait for just that long; beyond it the product wraps, to a shorter delay or to a negative
number.  For 0 the server arms no timer, and the client does not wait at all.
-/
import WebrtcEchoes.Sipsorcery.Timeouts

namespace WebrtcEchoes.Sipsorcery.Timeouts

/-- The option means to both programs what its help text says. -/
structure AsDocumented (pcTimeout : Int32) : Prop where
  client : wait pcTimeout =
    if pcTimeout = 0 then .unlimited else .after (1000 * pcTimeout.toInt.toNat)
  server : closeTimer pcTimeout =
    if pcTimeout = 0 then none else some (.after (1000 * pcTimeout.toInt.toNat))
  /-- No timer is no limit. -/
  agree : (closeTimer pcTimeout).getD .unlimited = wait pcTimeout

/-- The product of a number of seconds that is not negative. -/
theorem toInt_milliseconds (t : Int32) : (t * 1000).toInt = (t.toInt * 1000).bmod 4294967296 := by
  rw [Int32.toInt_mul]
  rfl

/-- **The product is right exactly up to 2147483 seconds.** -/
theorem toInt_milliseconds_eq_iff {t : Int32} (h : 0 ≤ t.toInt) :
    (t * 1000).toInt = 1000 * t.toInt ↔ t.toInt ≤ 2147483 := by
  have hlt := t.toInt_lt
  rw [toInt_milliseconds, Int.bmod_def]
  omega

/-- The delay is that of the product, where the product is right. -/
theorem delay_eq_after_iff {t : Int32} (h : 0 ≤ t.toInt) :
    delay (t * 1000) = .after (1000 * t.toInt.toNat) ↔ t.toInt ≤ 2147483 := by
  rw [← toInt_milliseconds_eq_iff h]
  have hminus : ∀ ms : Int32, ms = -1 ↔ ms.toInt = -1 := by
    intro ms
    rw [← Int32.toInt_inj]
    rfl
  have hless : ∀ ms : Int32, ms < -1 ↔ ms.toInt < -1 := by
    intro ms
    rw [Int32.lt_iff_toInt_lt]
    rfl
  simp only [delay, hminus, hless]
  split
  · exact iff_of_false (by simp) (by omega)
  · split
    · exact iff_of_false (by simp) (by omega)
    · rw [Delay.after.injEq]
      omega

/-- The server of an offer gets as far as its timer. -/
theorem newTimer_eq (pcTimeout : Int32) :
    Server.newTimer pcTimeout = decide (closeTimer pcTimeout ≠ some .throws) := by
  rw [Server.newTimer, decide_eq_decide]
  by_cases h0 : pcTimeout = 0
  · simp [h0, closeTimer]
  · have hle : -1 ≤ pcTimeout * 1000 ↔ ¬ pcTimeout * 1000 < -1 := Int32.not_lt.symm
    simp only [h0, false_or, closeTimer, ne_eq, not_false_iff, if_true, Option.some.injEq, hle,
      delay]
    by_cases hminus : pcTimeout * 1000 = -1
    · simp [hminus]
    · by_cases hlt : pcTimeout * 1000 < -1
      · simp [hminus, hlt]
      · simp [hminus, hlt]

/-! ### Each program -/

/-- **The client waits as documented for 1 to 2147483 seconds**, and returns at once for 0. -/
theorem wait_eq_iff {t : Int32} (h : 0 ≤ t) :
    wait t = (if t = 0 then .unlimited else .after (1000 * t.toInt.toNat)) ↔
      1 ≤ t.toInt ∧ t.toInt ≤ 2147483 := by
  have hpos : 0 ≤ t.toInt := Int32.le_iff_toInt_le.mp h
  by_cases h0 : t = 0
  · subst h0
    exact iff_of_false (by decide) (by decide)
  · have hne : t.toInt ≠ 0 := by
      intro hzero
      exact h0 (Int32.toInt_inj.mp hzero)
    have hone : 1 ≤ t.toInt := by omega
    rw [and_iff_right hone, ← delay_eq_after_iff hpos, wait, if_neg h0]

/-- **The timer of the server is as documented up to 2147483 seconds**, for 0 too. -/
theorem closeTimer_eq_iff {t : Int32} (h : 0 ≤ t) :
    closeTimer t = (if t = 0 then none else some (.after (1000 * t.toInt.toNat))) ↔
      t.toInt ≤ 2147483 := by
  by_cases h0 : t = 0
  · subst h0
    exact iff_of_true (by decide) (by decide)
  · rw [← delay_eq_after_iff (Int32.le_iff_toInt_le.mp h), closeTimer, if_pos h0, if_neg h0,
      Option.some.injEq]

section CommandLines

variable {parseArguments : List (List Char) → Option Client.Options} {args : List (List Char)}

/-- **A single word is no option of the client**: it is the URL, and the client waits for ten
seconds. -/
theorem clientWait_url (word : List Char) : clientWait parseArguments [word] = .after 10000 := by
  show wait Client.defaultSettings.pcTimeout = .after 10000
  decide

/-- Of two words or more the client waits for what the parser reads. -/
theorem clientWait_parsed {o : Client.Options} (hargs : 2 ≤ args.length)
    (hparse : parseArguments args = some o) :
    clientWait parseArguments args = wait o.testTimeoutSeconds := by
  match args, hargs with
  | first :: second :: rest, _ =>
      show wait (Client.withOptions (parseArguments (first :: second :: rest))).pcTimeout = _
      rw [hparse]
      rfl

theorem clientWait_eq_iff {o : Client.Options} (hargs : 2 ≤ args.length)
    (hparse : parseArguments args = some o) (h : 0 ≤ o.testTimeoutSeconds) :
    clientWait parseArguments args =
        (if o.testTimeoutSeconds = 0 then .unlimited
          else .after (1000 * o.testTimeoutSeconds.toInt.toNat)) ↔
      1 ≤ o.testTimeoutSeconds.toInt ∧ o.testTimeoutSeconds.toInt ≤ 2147483 := by
  rw [clientWait_parsed hargs hparse]
  exact wait_eq_iff h

theorem serverTimer_eq_iff {parseArguments : List (List Char) → Option Int32} {t : Int32}
    (hparse : parseArguments args = some t) (h : 0 ≤ t) :
    serverTimer parseArguments args =
        (if t = 0 then none else some (.after (1000 * t.toInt.toNat))) ↔
      t.toInt ≤ 2147483 := by
  rw [serverTimer, serverTimeout, hparse]
  exact closeTimer_eq_iff h

end CommandLines

/--
**The option means what it says for 1 to 2147483 seconds, and for no other number.**

For 0 the client returns at once instead of waiting without limit, and for a number above
2147483 the product wraps in both programs.
-/
theorem documented_iff (pcTimeout : Int32) (h : 0 ≤ pcTimeout) :
    AsDocumented pcTimeout ↔ 1 ≤ pcTimeout.toInt ∧ pcTimeout.toInt ≤ 2147483 := by
  rw [← wait_eq_iff h]
  refine ⟨fun hd => hd.client, fun hclient => ?_⟩
  have hrange := (wait_eq_iff h).mp hclient
  have hserver := (closeTimer_eq_iff h).mpr hrange.2
  have h0 : pcTimeout ≠ 0 := by
    rintro rfl
    exact absurd hrange.1 (by decide)
  refine ⟨hclient, hserver, ?_⟩
  rw [hclient, hserver, if_neg h0, if_neg h0]
  rfl

/-- The default of both programs. -/
theorem default_documented : AsDocumented 10 :=
  (documented_iff 10 (by decide)).mpr (by decide)

/-- With 0 the client does not wait, and one second above the bound it throws. -/
theorem zero_returns_at_once :
    wait 0 = .after 0 ∧ closeTimer 0 = none ∧ ¬ AsDocumented 0 ∧
      wait 2147484 = .throws ∧ closeTimer 2147484 = some .throws := by
  refine ⟨by decide, by decide, fun hd => ?_, by decide, by decide⟩
  exact absurd hd.client (by decide)

end WebrtcEchoes.Sipsorcery.Timeouts
