import OptoSync.StrictJsonComplete
import OptoSync.StrictJsonDigits

/-!
# What the strict JSON decoder accepts

`decode` against RFC 8259. It takes the digits that `java.lang.Character` takes, so that it accepts a
text more where such a digit is none of the grammar.
-/
namespace OptoSync.StrictJson

open JsonGrammar Java

theorem decode_sound {text : List UInt16} {v : Value BigDecimal}
    (h : decode (some text) = .ok v) : ∃ tree, JsonText digits text tree ∧ Decodes 0 tree v := by
  obtain ⟨⟨value, rest⟩, hparse, hend⟩ := bind_eq_ok.mp h
  obtain ⟨w, body, tree, hw, htext, hbody, hdecodes⟩ := (sound text _).value hparse
  dsimp only at hend
  split at hend
  · rename_i hskip
    obtain ⟨w', hw', hrest⟩ := exists_skipWhitespace rest
    rw [hskip, List.append_nil] at hrest
    cases hend
    rw [htext, hrest]
    exact ⟨tree, .text hw hbody hw', hdecodes⟩
  · simp at hend

theorem decode_complete {text : List UInt16} {tree : Value Numeral}
    (h : JsonText digits text tree) (hlimits : WithinLimits 0 tree) :
    ∃ v, decode (some text) = .ok v ∧ Decodes 0 tree v := by
  obtain ⟨hbefore, hbody, hafter⟩ := h
  rename_i before body after
  have hfollows : Follows after := by
    simpa using follows_whitespace hafter (r := []) (by simp [Follows])
  obtain ⟨v, w, hw, hparse, hdecodes⟩ :=
    (complete (before ++ (body ++ after)) _).value hbefore hbody hlimits hfollows (Nat.lt_succ_self _)
  refine ⟨v, bind_eq_ok.mpr ⟨_, hparse, ?_⟩, hdecodes⟩
  have hskip : skipWhitespace (w ++ after) = [] := by
    simpa [skipWhitespace] using skipWhitespace_append (hw.append hafter) []
  dsimp only
  rw [if_pos hskip]

/-- The decoder returns or throws. -/
theorem settles_decode (text : List UInt16) : Settles (decode (some text)) := by
  refine ((settled text _).value (Nat.lt_succ_self _)).bind fun result _ => ?_
  dsimp only
  split
  · exact settles_ok _
  · exact settles_error _ _

/-- The decoder does with the text what the grammar of RFC 8259 says, up to its limits. -/
structure Exact (text : List UInt16) : Prop where
  accepts : ∀ tree, JsonText rfc8259 text tree → WithinLimits 0 tree →
    ∃ v, decode (some text) = .ok v ∧ v.map BigDecimal.value = tree.denote
  refuses : (∀ tree, JsonText rfc8259 text tree → ¬ WithinLimits 0 tree) →
    ∃ message, decode (some text) = .error (.illegalArgument message)

/-- The decoder is exact but for texts that are JSON with digits of other scripts. -/
theorem decode_exact_iff (text : List UInt16) :
    Exact text ↔
      ∀ tree, JsonText digits text tree → WithinLimits 0 tree → asciiDigits text = true := by
  constructor
  · intro hexact tree htext hlimits
    by_contra hascii
    have hnone : ∀ tree, JsonText rfc8259 text tree → ¬ WithinLimits 0 tree :=
      fun _ htree _ => hascii (jsonText_iff.mp htree).2
    obtain ⟨message, herror⟩ := hexact.refuses hnone
    obtain ⟨v, hok, -⟩ := decode_complete htext hlimits
    rw [hok] at herror
    simp at herror
  · intro hascii
    constructor
    · intro tree htext hlimits
      obtain ⟨v, hok, hdecodes⟩ := decode_complete (jsonText_iff.mp htext).1 hlimits
      exact ⟨v, hok, hdecodes.value_eq⟩
    · intro hnone
      cases hdecode : decode (some text) with
      | ok v =>
        obtain ⟨tree, htext, hdecodes⟩ := decode_sound hdecode
        have hlimits := hdecodes.toWithinLimits
        exact absurd hlimits (hnone tree (jsonText_iff.mpr ⟨htext, hascii tree htext hlimits⟩))
      | error e =>
        cases e with
        | illegalArgument message => exact ⟨message, rfl⟩
        | exhausted => exact absurd hdecode (settles_decode text)

/-- U+0663, the digit three of the Arabic script, is the number three to the decoder. -/
theorem decode_arabicThree : ¬ Exact [0x0663] := by
  intro hexact
  have hnone : ∀ tree, JsonText rfc8259 [0x0663] tree → ¬ WithinLimits 0 tree :=
    fun _ htree _ => absurd (jsonText_iff.mp htree).2 (by decide)
  obtain ⟨message, herror⟩ := hexact.refuses hnone
  have hok : (decode (some [0x0663])).isOk = true := by decide
  rw [herror] at hok
  exact Bool.false_ne_true hok

end OptoSync.StrictJson
