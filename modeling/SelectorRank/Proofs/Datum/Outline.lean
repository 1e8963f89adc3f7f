import SelectorRank.Datum.Outline
import SelectorRank.Proofs.Datum.Render
import SelectorRank.Proofs.Text.Lines

/-! The check is enough for all that comes after it. Data that passes, and whose integers can be
written, is weighed, written and outlined without a fault, as the tokens that it is taken for. -/
namespace SelectorRank

/-! Ends of lines. -/

def EndsVisible (s : String) : Prop := s.toList.getLast?.all Text.isBlank = false

instance : DecidablePred EndsVisible := fun s =>
  inferInstanceAs (Decidable (s.toList.getLast?.all Text.isBlank = false))

theorem endsVisible {s : String} :
    EndsVisible s ↔ ∃ front c, s.toList = front ++ [c] ∧ Text.isBlank c = false := by
  constructor
  · intro ends
    unfold EndsVisible at ends
    cases last : s.toList.getLast? with
    | none => simp [last] at ends
    | some c =>
      obtain ⟨front, same⟩ := List.getLast?_eq_some_iff.mp last
      exact ⟨front, c, same, by simpa [last] using ends⟩
  · rintro ⟨front, c, same, visible⟩
    simp [EndsVisible, same, visible]

theorem endsAppend (s : String) {t : String} (ends : EndsVisible t) : EndsVisible (s ++ t) := by
  obtain ⟨front, c, same, visible⟩ := endsVisible.mp ends
  refine endsVisible.mpr ⟨s.toList ++ front, c, ?_, visible⟩
  rw [String.toList_append, same, List.append_assoc]

theorem endsQuoted (s : String) : EndsVisible (Text.quoted s) := by
  refine endsVisible.mpr ⟨_, Text.quoteFor s.toList, String.toList_ofList, ?_⟩
  unfold Text.quoteFor
  split <;> rfl

theorem endsJoined {ds : List String} (some : ds ≠ []) (each : ∀ d ∈ ds, EndsVisible d) :
    EndsVisible (String.intercalate " " ds) := by
  induction ds with
  | nil => exact absurd rfl some
  | cons d ds ih =>
    obtain ⟨first, rest⟩ := List.forall_mem_cons.mp each
    cases ds with
    | nil => rwa [String.intercalate_singleton]
    | cons e es =>
      rw [String.intercalate_cons_cons]
      exact endsAppend _ (ih (List.cons_ne_nil e es) rest)

theorem trimEnds {s : String} (ends : EndsVisible s) :
    Text.trimRight Text.isBlank s.toList = s.toList := by
  obtain ⟨front, c, same, visible⟩ := endsVisible.mp ends
  have single : Text.trimRight Text.isBlank [c] = [c] := Text.trimRightCons visible []
  rw [same, Text.trimRightAppend _ _ (by rw [single]; exact List.cons_ne_nil c []), single]

namespace Datum

theorem strippedWhole (depth : Nat) {kind : String} {details : List String}
    (named : EndsVisible kind) (each : ∀ d ∈ details, EndsVisible d) :
    strippedLine depth kind details = outlineLine depth kind details := by
  have heading := endsAppend (indent depth) named
  cases details with
  | nil =>
    -- the blank behind the kind is all that is stripped
    have blank : ∀ c ∈ (" " ++ String.intercalate " " []).toList, Text.isBlank c = true := by decide
    rw [strippedLine, String.append_assoc, String.toList_append, (Text.trimRightSame _ _).mpr blank,
      trimEnds heading, String.ofList_toList, outlineLine, String.intercalate_singleton]
  | cons d ds =>
    have joined :=
      endsAppend (indent depth ++ kind ++ " ") (endsJoined (List.cons_ne_nil d ds) each)
    rw [strippedLine, trimEnds joined, String.ofList_toList, outlineLine,
      String.intercalate_cons_cons]

/-! Details. -/

theorem bucketDetailsDatum (bucket : Option Bucket) :
    (Bucket.datum? bucket).bucketDetails = .ok (Bucket.details bucket) := by
  cases bucket with
  | none => rfl
  | some bucket => cases bucket <;> rfl

theorem spaceDetailsDatum (space : Namespace) :
    space.datum.spaceDetails = .ok space.details := by
  cases space <;> rfl

theorem detailsDatum {s : Simple} (bucket : Option Bucket) (short : s.isWritable = true) :
    (s.datum bucket).details = .ok s.details := by
  rw [← showableSimple s bucket] at short
  cases s with
  | universal space => exact spaceDetailsDatum space
  | element name space | «attribute» name space =>
    rw [Simple.datum, details, spaceDetailsDatum]
    rfl
  | attributeValue name operator value space =>
    have comparison : valueDetails (.operatorMember operator) (.text value) =
        .ok [operator.symbol ++ " " ++ Text.quoted value] :=
      congrArg (fun symbol => Except.ok [symbol ++ " " ++ Text.quoted value]) String.ofList_toList
    rw [Simple.datum, details, spaceDetailsDatum, comparison]
    exact congrArg Except.ok (List.append_assoc ..)
  | id name | className name | pseudoElement name => rfl
  | pseudoClass name argument =>
    cases argument with
    | none => rfl
    | some a =>
      simp only [Simple.datum, isShowable, Argument.datum?, Bool.and_eq_true] at short
      rw [Simple.datum, Argument.datum?, details, argumentDetails.eq_2 _ a.datumGiven, display,
        ifShowable, if_pos short.1.2]
      rfl

theorem endsBucket (bucket : Option Bucket) : ∀ d ∈ Bucket.details bucket, EndsVisible d := by
  cases bucket with
  | none => simp [Bucket.details]
  | some bucket => simpa [Bucket.details] using endsAppend ("[" ++ bucket.letter) (by decide)

theorem endsSpace (space : Namespace) : ∀ d ∈ space.details, EndsVisible d := by
  cases space <;> simp [Namespace.details, endsAppend, endsQuoted]

theorem endsArgument (a : Argument) : EndsVisible a.datum.shown := by
  cases a <;> rw [Argument.datum, shown, fields] <;> exact endsAppend _ (by decide)

theorem endsDetails (s : Simple) : ∀ d ∈ s.details, EndsVisible d := by
  cases s with
  | universal space => exact endsSpace space
  | element name space | «attribute» name space =>
    exact List.forall_mem_append.mpr ⟨endsSpace space, by simp [endsQuoted]⟩
  | attributeValue name operator value space =>
    exact List.forall_mem_append.mpr ⟨endsSpace space, by simp [endsQuoted, endsAppend]⟩
  | id name | className name | pseudoElement name => simp [Simple.details, endsQuoted]
  | pseudoClass name argument =>
    cases argument <;> simp [Simple.details, endsQuoted, endsArgument]

theorem endsKind (s : Simple) (bucket : Option Bucket) : EndsVisible (s.datum bucket).kind := by
  cases s <;> simp only [Simple.datum, kind] <;> decide

/-! Lines. -/

theorem tokenLineDatum (depth : Nat) {s : Simple} (bucket : Option Bucket)
    (short : s.isWritable = true) : tokenLine depth (s.datum bucket) =
      .ok (outlineLine depth (s.datum bucket).kind (s.details ++ Bucket.details bucket)) := by
  have column : (s.datum bucket).statedBucket = Bucket.datum? bucket := by cases s <;> rfl
  have ends := List.forall_mem_append.mpr ⟨endsDetails s, endsBucket bucket⟩
  rw [tokenLine.eq_2 _ _ (s.datumNoCombinator bucket), detailsDatum bucket short, column,
    bucketDetailsDatum]
  exact congrArg Except.ok (strippedWhole depth (endsKind s bucket) ends)

theorem outlineTokens :
    (∀ t : Token, ∀ depth, t.isWritable = true →
      tokenOutline depth t.datum = .ok (t.outline depth)) ∧
    ∀ tokens, ∀ depth, SelectorRank.areWritable tokens = true →
      allOutlines depth (tokenData tokens) = .ok (outlineAll depth tokens) := by
  apply Token.datum.mutual_induct
  case case1 =>
    intro s bucket depth short
    rw [Token.datum, tokenOutline.eq_2 _ _ (s.datumNoNegation bucket),
      tokenLineDatum depth bucket short, Token.outline]
  case case2 =>
    intro form body bucket inner depth short
    have inner := inner (depth + 1) short
    have named : EndsVisible "NegationSelector" := by decide
    have line : tokenLine depth (.negation (form.datum (tokenData body)) (Bucket.datum? bucket)) =
        .ok (outlineLine depth "NegationSelector" (Bucket.details bucket)) := by
      rw [tokenLine.eq_2 _ _ (fun _ same => by cases same), statedBucket, bucketDetailsDatum]
      exact congrArg Except.ok (strippedWhole depth named (endsBucket bucket))
    rw [Token.datum, tokenOutline, line, Token.outline]
    cases form <;> simp only [BodyForm.datum, sequenceOutline, inner] <;> rfl
  case case3 =>
    intro value depth _
    rw [Token.datum, tokenOutline.eq_2 _ _ (fun _ _ same => by cases same), tokenLine,
      Token.outline, outlineLine, String.intercalate_singleton]
  case case4 => exact fun _ _ => rfl
  case case5 =>
    intro t ts first rest depth short
    obtain ⟨here, later⟩ := Bool.and_eq_true_iff.mp short
    rw [tokenData, allOutlines, first depth here, rest depth later]
    rfl

/-! Data that passes the check. -/

theorem outlineListed {d : Datum} {tokens : List Token} (listed : IsListed d (tokenData tokens))
    (short : SelectorRank.areWritable tokens = true) :
    d.outline = .ok (Selector.ofTokens tokens).outline := by
  have lines : d.sequenceOutline 1 = .ok (outlineAll 1 tokens) := by
    rcases listed with rfl | rfl <;> rw [sequenceOutline, outlineTokens.2 tokens 1 short]
  rw [outline, tallyListed listed, renderListed listed short, lines]
  rfl

/-- Data that passes the check can be weighed, written and outlined, and so can the selector that is
made of it, which is also shown, if its integers are short enough to be written. -/
theorem checkSuffices {d : Datum} {tokens : List Token} (ok : d.check = .ok tokens)
    (showable : d.isShowable = true) :
    d.tally = .ok (specificityOf tokens) ∧
    d.render = .ok (canonicalText tokens) ∧
    d.outline = .ok (Selector.ofTokens tokens).outline ∧
    (Selector.ofTokens tokens).text? = some (canonicalText tokens) ∧
    (Selector.ofTokens tokens).shown? =
      some ("Selector(" ++ Text.quoted (canonicalText tokens) ++ ")") := by
  have listed := checkSource ok
  have short : SelectorRank.areWritable tokens = true := showableListed listed ▸ showable
  have text : (Selector.ofTokens tokens).text? = some (canonicalText tokens) := if_pos short
  refine ⟨tallyListed listed, renderListed listed short, outlineListed listed short, text, ?_⟩
  rw [Selector.shown?, text]
  rfl

theorem checkSufficesNested :
    let test : Datum := .attributeValue (.text "a\n") (.operatorMember .dashMatch) (.text "")
      .anyNamespace .null
    let count : Datum := .pseudoClass (.text "nth-child")
      (.seriesArgument (.integer (-2)) (.integer 1)) (.bucketMember .a)
    let d : Datum := .tuple [.id (.text "b") (.bucketMember .b), .combinator .child,
      .negation (.list [test, count]) .null]
    let tokens : List Token := [.usual (.id "b"), .combinator .child, .negation .list
      [.simple (.attributeValue "a\n" .dashMatch "" .any) none,
        .simple (.pseudoClass "nth-child" (some (.series ⟨-2, 1⟩))) (some .a)] none]
    d.check = .ok tokens ∧ d.isShowable = true ∧ d.tally = .ok ⟨1, 1, 0, 0⟩ ∧
      d.outline = .ok (Selector.ofTokens tokens).outline := by
  intro test count d tokens
  have ok : d.check = .ok tokens := rfl
  have showable : d.isShowable = true := rfl
  obtain ⟨weight, _, lines, _⟩ := checkSuffices ok showable
  exact ⟨ok, showable, weight, lines⟩

end Datum

end SelectorRank
