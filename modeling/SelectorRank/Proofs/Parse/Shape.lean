import SelectorRank.Proofs.Datum.Check
import SelectorRank.Proofs.Normalize
import SelectorRank.Store

/-! Selectors of any source. They have the shape of selectors and hold names as they should be, so
the check accepts them, they can be written, and none of them counts in the column of the element's
own style. -/
namespace SelectorRank
open Spelling

/-- What is known of the texts of any source that is read. -/
def parsed : Vocabulary where
  element := fun _ name => IsName name
  name := IsName
  id := IsName
  space := IsName
  value := fun value => HasNoNull value.toList
  series := Series.Short
  pseudoElement := IsName
  pseudoClass := fun _ name => IsName name
  function := IsName

theorem toLowerVisible {c : Char} (visible : c ≠ '\x00') : c.toLower ≠ '\x00' := by
  unfold Char.toLower
  split
  · next upper =>
    simp only [ge_iff_le, UInt32.le_iff_toNat_le] at upper
    intro null
    have number := congrArg Char.toNat null
    have sum : (c.val + ('a'.val - 'A'.val)).toNat = c.val.toNat + 32 :=
      (UInt32.toNat_add ..).trans (Nat.mod_eq_of_lt (by
        have bound : 'Z'.val.toNat = 90 := rfl
        have step : ('a'.val - 'A'.val).toNat = 32 := rfl
        omega))
    have zero : '\x00'.toNat = 0 := rfl
    change (c.val + ('a'.val - 'A'.val)).toNat = _ at number
    omega
  · exact visible

theorem loweredName {name : String} (named : IsName name) : IsName (lowered name) := by
  obtain ⟨some, visible⟩ := named
  constructor
  · intro empty
    have chars := congrArg String.toList empty
    rw [lowered, String.toList_ofList] at chars
    exact some (String.toList_eq_nil_iff.mp (List.map_eq_nil_iff.mp chars))
  · rw [lowered, String.toList_ofList]
    intro c member
    obtain ⟨d, given, rfl⟩ := List.mem_map.mp member
    exact toLowerVisible (visible d given)

theorem lexiconParsed : lexicon.vocabulary.Within parsed where
  element := And.left
  name := id
  id := id
  space := And.left
  value valued := valued.elim And.right id
  series := id
  pseudoElement := fun ⟨_, named, _, same⟩ => same ▸ loweredName named
  pseudoClass := fun ⟨⟨_, named, _, same⟩, _⟩ => same ▸ loweredName named
  function := fun ⟨⟨_, named, _, same⟩, _⟩ => same ▸ loweredName named

/-! Tokens in that shape. -/

/-- A token that the check accepts, that can be written and that does not count as the element's own
style. -/
structure Regular (t : Token) : Prop where
  checked : Datum.Checked t
  column : t.specificity.a = 0
  writable : t.isWritable = true

section
variable {s : Simple} {tokens : List Token} {t : Token}

theorem regularUsual (named : s.IsNamed) (column : s.bucket ≠ some .a)
    (writable : s.isWritable = true) : Regular (.usual s) := by
  refine ⟨.simple named, ?_, by rwa [Token.usual, Token.isWritable]⟩
  rw [Token.usual, Token.specificity]
  cases stated : s.bucket with
  | none => rfl
  | some bucket => cases bucket <;> simp_all [Specificity.ofOption, Specificity.ofBucket]

theorem regularColumn (each : ∀ t ∈ tokens, Regular t) : (specificityOf tokens).a = 0 := by
  induction tokens with
  | nil => rfl
  | cons t ts ih =>
    obtain ⟨first, rest⟩ := List.forall_mem_cons.mp each
    rw [specificityOf, Specificity.add, first.column, ih rest]

theorem regularWritable (each : ∀ t ∈ tokens, Regular t) : areWritable tokens = true := by
  induction tokens with
  | nil => rfl
  | cons t ts ih =>
    obtain ⟨first, rest⟩ := List.forall_mem_cons.mp each
    rw [areWritable, first.writable, ih rest]
    rfl

theorem regularHeads (heads : parsed.Heads t) : Regular t := by
  cases heads with
  | universal _ _ => exact regularUsual trivial (by simp [Simple.bucket]) rfl
  | element _ named => exact regularUsual named.1 (by simp [Simple.bucket]) rfl

theorem givenNamed {counting : Bool} {argument : Argument}
    (given : parsed.Gives counting argument) : argument.IsNamed := by
  cases argument with
  | identifier value => exact given.2.1
  | _ => trivial

theorem givenWritable {counting : Bool} {argument : Argument} (name : String)
    (given : parsed.Gives counting argument) :
    (Simple.pseudoClass name (some argument)).isWritable = true := by
  cases argument with
  | series value =>
    have short : value.Short := given.2
    simpa [Simple.isWritable, Series.isWritable, Series.Short] using short
  | _ => rfl

theorem regularQualifies {opens : Bool} (qualifies : parsed.Qualifies opens t) : Regular t := by
  cases qualifies with
  | id named => exact regularUsual named.1 (by simp [Simple.bucket]) rfl
  | className named => exact regularUsual named.1 (by simp [Simple.bucket]) rfl
  | presence _ named => exact regularUsual named.1 (by simp [Simple.bucket]) rfl
  | comparison _ named _ => exact regularUsual named.1 (by simp [Simple.bucket]) rfl
  | pseudoClass named => exact regularUsual ⟨named.1, by simp⟩ (by simp [Simple.bucket]) rfl
  | function named given =>
    exact regularUsual ⟨named.1, by simpa using givenNamed given⟩ (by simp [Simple.bucket])
      (givenWritable _ given)

theorem regularBare : Regular (.usual (.universal .unspecified)) :=
  regularUsual trivial (by simp [Simple.bucket]) rfl

theorem regularCombinator (combinator : Combinator) : Regular (.combinator combinator) :=
  ⟨.combinator, rfl, rfl⟩

theorem regularParts {opens : Bool} (part : parsed.Parts opens t) : Regular t := by
  cases part with
  | simple qualifies => exact regularQualifies qualifies
  | negation holds =>
    have each := sequenceTokens (p := parsed.inside) regularHeads regularQualifies False.elim
      regularBare regularCombinator holds
    exact ⟨.negation (sequenceSome holds) (fun t member => (each t member).checked),
      regularColumn each, regularWritable each⟩

theorem regularEnds (ends : parsed.Ends t) : Regular t := by
  cases ends with
  | pseudoElement named => exact regularUsual named.1 (by simp [Simple.bucket]) rfl

theorem regularSelector (shape : parsed.IsSelector tokens) : ∀ t ∈ tokens, Regular t :=
  sequenceTokens regularHeads regularParts regularEnds regularBare regularCombinator shape

end

theorem parsedChecked {tokens : List Token} (shape : parsed.IsSelector tokens) :
    (Datum.list (tokenData tokens)).check = .ok tokens :=
  Datum.checkDatum (sequenceSome shape) (fun t member => (regularSelector shape t member).checked)

/-! Sources. -/

theorem sourceShaped {source : String} {list : List Written}
    (read : readSource source.toList = .ok list) {written : Written} (member : written ∈ list)
    {tokens : List Token} (converted : written.tokens = .ok tokens) : parsed.IsSelector tokens :=
  Vocabulary.selectorWithin lexiconParsed
    ((readListOutput (sourceStarts source.toList) rfl read).2 written member tokens converted)

/-- Selectors of a source have their shape, in which negations may hold whole sequences of compounds,
and none counts as the element's own style. Whatever is converted passes the check, also where the
rest of the source cannot be converted. -/
theorem parseListShaped (source : String) :
    (∀ selectors, parseList source = .ok selectors → ∀ s ∈ selectors,
      parsed.IsSelector s.tokens ∧ s.specificity = specificityOf s.tokens ∧
        s.specificity.a = 0) ∧
    ∀ list, readSource source.toList = .ok list → ∀ written ∈ list, ∀ tokens,
      written.tokens = .ok tokens → (Datum.list (tokenData tokens)).check = .ok tokens := by
  constructor
  · intro selectors read
    obtain ⟨tokens, seqs, rfl, shaped⟩ := parseListShape (sourceStarts source.toList) read
    refine List.forall_mem_map.mpr ?_
    intro given member
    have shape := Vocabulary.selectorWithin lexiconParsed (shaped given member)
    exact ⟨shape, rfl, regularColumn (regularSelector shape)⟩
  · intro list read written member tokens converted
    exact parsedChecked (sourceShaped read member converted)

theorem negationOfPair :
    let body : List Token := [.usual (.element "a" .unspecified), .combinator .descendant,
      .usual (.element "b" .unspecified)]
    parseList ":not(a b)" = .ok [.ofTokens [.not body]] ∧ .combinator .descendant ∈ body :=
  ⟨by decide +kernel, by simp⟩

end SelectorRank
