import SelectorRank.Proofs.Token.Control

/-! Quoted texts. What they quote is shown or written as an escape, so no control character is left
in them and none breaks the line that they stand in. -/
namespace SelectorRank
namespace Text

theorem printableNoControl {c : Char} (printable : isPrintable c = true) : ¬ IsControl c := by
  intro control
  have hidden : hiddenRanges.any (fun r => r.1 ≤ c.toNat && c.toNat ≤ r.2) = true := by
    rw [List.any_eq_true]
    rcases control with low | delete
    · exact ⟨(0x0, 0x1f), .head _, by simpa using low⟩
    · exact ⟨(0x7f, 0xa0), .tail _ (.head _), by simp [delete]⟩
  simp [isPrintable, hidden] at printable

theorem hexNoControl (n : Nat) : HasNoControl (hex n) := by
  have digit : ∀ d < 16, ¬ IsControl (Nat.digitChar d) := by decide
  induction n using Nat.strongRecOn with
  | ind n ih =>
    rw [hex, Nat.toDigits_eq_if (by decide)]
    split
    · next small => simp [digit n small]
    · next large =>
      have rest : HasNoControl (Nat.toDigits 16 (n / 16)) := ih (n / 16) (by omega)
      simp [rest, digit (n % 16) (by omega)]

theorem padLeftNoControl {fill : Char} {cs : List Char} (width : Nat) (visible : ¬ IsControl fill)
    (rest : HasNoControl cs) : HasNoControl (padLeft width fill cs) := by
  refine noControlAppend.mpr ⟨fun c member => ?_, rest⟩
  rwa [List.eq_of_mem_replicate member]

theorem numberedNoControl (n : Nat) : HasNoControl (numbered n) := by
  have zero : ¬ IsControl '0' := by decide
  have digits (width : Nat) := padLeftNoControl width zero (hexNoControl n)
  unfold numbered
  split
  · simp [digits, IsControl]
  split <;> simp [digits, IsControl]

theorem quotedCharNoControl {quote : Char} (visible : ¬ IsControl quote) (c : Char) :
    HasNoControl (quotedChar quote c) := by
  unfold quotedChar
  split
  · next marked =>
    have other : ¬ IsControl c := by
      rcases Bool.or_eq_true_iff.mp marked with same | same
      · exact of_decide_eq_true same ▸ visible
      · exact of_decide_eq_true same ▸ by decide
    exact markedNoControl other
  split
  · decide
  split
  · decide
  split
  · decide
  split
  · next printable => exact noControlCons.mpr ⟨printableNoControl printable, noControlNil⟩
  · exact numberedNoControl _

theorem quoteForVisible (cs : List Char) : ¬ IsControl (quoteFor cs) := by
  unfold quoteFor
  split <;> decide

@[simp] theorem quotedNoControl (s : String) : HasNoControl (quoted s).toList := by
  have quote := quoteForVisible s.toList
  have body := noControlEach (quotedCharNoControl quote) s.toList
  rw [quoted, String.toList_ofList, quotedChars]
  simp [quote, body]

end Text

end SelectorRank
