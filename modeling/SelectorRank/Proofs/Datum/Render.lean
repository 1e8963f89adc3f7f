import SelectorRank.Datum.Render
import SelectorRank.Proofs.Datum.Check
import SelectorRank.Store

/-! Fields of tokens that were checked. Whatever reads them finds what it looks for, so the data of
tokens weighs what they weigh and is written as they are. -/
namespace SelectorRank

theorem Simple.datumNoNegation (s : Simple) (bucket : Option Bucket) (body column : Datum) :
    s.datum bucket ≠ .negation body column := by
  intro same
  cases s <;> cases same

theorem Simple.datumNoCombinator (s : Simple) (bucket : Option Bucket) (value : Combinator) :
    s.datum bucket ≠ .combinator value := by
  intro same
  cases s <;> cases same

theorem Argument.datumGiven (a : Argument) : a.datum ≠ .null := by
  intro same
  cases a <;> cases same

namespace Datum

/-! Integers that can be written. -/

@[simp] theorem showableBucket (bucket : Option Bucket) :
    (Bucket.datum? bucket).isShowable = true := by
  cases bucket <;> rfl

@[simp] theorem showableSpace (space : Namespace) : space.datum.isShowable = true := by
  cases space <;> rfl

@[simp] theorem showableText (value : String) : (Datum.text value).isShowable = true := rfl

@[simp] theorem showableOperator (value : AttributeOperator) :
    (Datum.operatorMember value).isShowable = true := rfl

theorem showableSimple (s : Simple) (bucket : Option Bucket) :
    (s.datum bucket).isShowable = s.isWritable := by
  cases s with
  | pseudoClass name argument =>
    cases argument with
    | none => simp [Simple.datum, isShowable, Argument.datum?, Simple.isWritable]
    | some argument =>
      cases argument <;> simp [Simple.datum, isShowable, Argument.datum?, Argument.datum,
        Simple.isWritable, Series.isWritable]
  | _ => simp [Simple.datum, isShowable, Simple.isWritable]

theorem showableTokens :
    (∀ t : Token, t.datum.isShowable = t.isWritable) ∧
    ∀ tokens, areShowable (tokenData tokens) = SelectorRank.areWritable tokens := by
  apply Token.datum.mutual_induct
  case case1 => exact showableSimple
  case case2 =>
    intro form body bucket inner
    cases form <;> simp [Token.datum, BodyForm.datum, isShowable, Token.isWritable, inner]
  case case3 => exact fun _ => rfl
  case case4 => rfl
  case case5 =>
    intro t ts first rest
    rw [tokenData, areShowable, first, rest, SelectorRank.areWritable]

/-! Specificity. -/

theorem tallySimple (s : Simple) (bucket : Option Bucket) :
    tallyToken (s.datum bucket) = .ok (Specificity.ofOption bucket) := by
  cases s <;> cases bucket <;> rfl

theorem tallyTokens :
    (∀ t : Token, tallyToken t.datum = .ok t.specificity) ∧
    ∀ tokens, tallyAll (tokenData tokens) = .ok (specificityOf tokens) := by
  apply Token.datum.mutual_induct
  case case1 => exact tallySimple
  case case2 =>
    intro form body bucket inner
    cases bucket with
    | none => cases form <;> exact inner
    | some bucket => cases form <;> rfl
  case case3 => exact fun _ => rfl
  case case4 => rfl
  case case5 =>
    intro t ts first rest
    rw [tokenData, tallyAll, first, rest]
    rfl

/-! Canonical text. -/

theorem spacePrefixDatum (space : Namespace) : space.datum.spacePrefix = space.chars := by
  cases space <;> rfl

section
variable {k step offset : Int}

theorem runningInteger (short : (Datum.integer k).isShowable = true) :
    (Datum.integer k).running = .ok (Text.integer k) := by
  have text : (Datum.integer k).asText = (Datum.integer k).shown := rfl
  rw [running, ifShowable, text, shown, String.toList_ofList]
  exact if_pos short

theorem stepCharsInteger (short : (Datum.integer k).isShowable = true) :
    (Datum.integer k).stepChars = .ok (Series.stepText k) := by
  simp only [stepChars, equalsInteger, Series.stepText, runningInteger short, decide_eq_true_eq]
  split
  · rfl
  split
  · rfl
  split <;> rfl

theorem seriesCharsInteger (first : (Datum.integer step).isShowable = true)
    (second : (Datum.integer offset).isShowable = true) :
    seriesChars (.integer step) (.integer offset) = .ok (Series.text ⟨step, offset⟩) := by
  rw [seriesChars, stepCharsInteger first]
  simp only [bind, Except.bind, equalsInteger, isPositive, runningInteger second, Series.text]
  by_cases none : Series.stepText step = []
  · simp [none]
  by_cases zero : offset = 0
  · simp [none, zero]
  by_cases positive : 0 < offset <;> simp [none, zero, positive]

end

theorem argumentCharsDatum {a : Argument} (short : a.datum.isShowable = true) :
    a.datum.argumentChars = .ok a.chars := by
  cases a with
  | series value =>
    simp only [Argument.datum, isShowable, Bool.and_eq_true] at short
    exact seriesCharsInteger short.1 short.2
  | _ => rfl

theorem simpleCharsDatum {s : Simple} (bucket : Option Bucket) (short : s.isWritable = true) :
    simpleChars (s.datum bucket) = .ok s.chars := by
  rw [← showableSimple s bucket] at short
  cases s with
  | universal space => simp only [Simple.datum, simpleChars, spacePrefixDatum, Simple.chars]
  | element name space =>
    rw [Simple.datum, simpleChars, spacePrefixDatum]
    rfl
  | id name => rfl
  | className name => rfl
  | «attribute» name space =>
    rw [Simple.datum, simpleChars, spacePrefixDatum]
    rfl
  | attributeValue name operator value space =>
    rw [Simple.datum, simpleChars, spacePrefixDatum]
    rfl
  | pseudoElement name => rfl
  | pseudoClass name argument =>
    cases argument with
    | none => rfl
    | some a =>
      simp only [Simple.datum, isShowable, Argument.datum?, Bool.and_eq_true] at short
      rw [Simple.datum, Argument.datum?, simpleChars.eq_10 _ _ _ a.datumGiven,
        argumentCharsDatum short.1.2]
      rfl

theorem charsTokens :
    (∀ t : Token, t.isWritable = true → tokenChars t.datum = .ok t.chars) ∧
    ∀ tokens, SelectorRank.areWritable tokens = true →
      allChars (tokenData tokens) = .ok (charsOf tokens) := by
  apply Token.datum.mutual_induct
  case case1 =>
    intro s bucket short
    rw [Token.datum, Token.chars, tokenChars.eq_2 _ (s.datumNoNegation bucket),
      simpleCharsDatum bucket short]
  case case2 =>
    intro form body bucket inner short
    have inner := inner short
    cases form <;> simp only [Token.datum, BodyForm.datum, tokenChars, sequenceChars, inner] <;> rfl
  case case3 => exact fun _ _ => rfl
  case case4 => exact fun _ => rfl
  case case5 =>
    intro t ts first rest short
    obtain ⟨here, later⟩ := Bool.and_eq_true_iff.mp short
    rw [tokenData, allChars, first here, rest later]
    rfl

/-! Sequences. -/

theorem showableListed {d : Datum} {tokens : List Token} (listed : IsListed d (tokenData tokens)) :
    d.isShowable = SelectorRank.areWritable tokens := by
  rcases listed with rfl | rfl <;> rw [isShowable, showableTokens.2]

theorem tallyListed {d : Datum} {tokens : List Token} (listed : IsListed d (tokenData tokens)) :
    d.tally = .ok (specificityOf tokens) := by
  rcases listed with rfl | rfl <;> rw [tally, tallyTokens.2]

theorem renderListed {d : Datum} {tokens : List Token} (listed : IsListed d (tokenData tokens))
    (short : SelectorRank.areWritable tokens = true) : d.render = .ok (canonicalText tokens) := by
  rcases listed with rfl | rfl <;> rw [render, sequenceChars, charsTokens.2 tokens short] <;> rfl

end Datum

end SelectorRank
