import SelectorRank.Proofs.Datum.Load

/-! Plain data for tokens: a mapping with the tag and the fields of each. Tokens that passed the
check are loaded from any data that encodes them just as they are, unless the body of a negation is
no tuple or a namespace is named by a star, and no data gives tokens like that. -/
namespace SelectorRank

def Combinator.tag : Combinator → String
  | .descendant => "descendantCombinator"
  | .child => "childCombinator"
  | .adjacent => "adjacentSiblingCombinator"
  | .sibling => "generalSiblingCombinator"

def Simple.tag : Simple → String
  | .universal _ => "universalSelector"
  | .element .. => "typeSelector"
  | .id _ => "idSelector"
  | .className _ => "classSelector"
  | .attribute .. => "attributePresenceSelector"
  | .attributeValue .. => "attributeValueSelector"
  | .pseudoElement _ => "pseudoElementSelector"
  | .pseudoClass .. => "pseudoClassSelector"

def Simple.space : Simple → Namespace
  | .universal space => space
  | .element _ space => space
  | .attribute _ space => space
  | .attributeValue _ _ _ space => space
  | _ => .unspecified

/-! Encoding. A formula is encoded as a mapping of its two integers or as the pair of them. -/

def Bucket.plain : Option Bucket → Datum
  | none => .null
  | some bucket => .text bucket.letter

def Namespace.plain? : Namespace → Option Datum
  | .unspecified => none
  | .named name => some (.text name)
  | .any => some (.bool true)

def Namespace.fields (space : Namespace) : List (String × Datum) :=
  (space.plain?.map ("namespace", ·)).toList

/-- Fields of a simple token but for its tag, its argument and its column. -/
def Simple.fields : Simple → List (String × Datum)
  | .universal space => space.fields
  | .element name space => ("name", .text name) :: space.fields
  | .id name => [("name", .text name)]
  | .className name => [("name", .text name)]
  | .attribute name space => ("name", .text name) :: space.fields
  | .attributeValue name operator value space =>
      ("name", .text name) :: ("operator", .text operator.symbol) :: ("value", .text value) ::
        space.fields
  | .pseudoElement name => [("name", .text name)]
  | .pseudoClass name _ => [("name", .text name)]

def Simple.allFields (s : Simple) (bucket : Option Bucket) (expression : List (String × Datum)) :
    List (String × Datum) :=
  ("type", .text s.tag) :: ("specificityType", Bucket.plain bucket) :: (s.fields ++ expression)

namespace Datum

/-- A mapping of these fields, in any order. -/
def Holds (d : Datum) (fields : List (String × Datum)) : Prop :=
  ∃ entries, d = .mapping entries ∧ ∀ key, field? key entries = fields.lookup key

theorem holdsSelf (fields : List (String × Datum)) : Holds (.mapping fields) fields :=
  ⟨fields, rfl, fun _ => rfl⟩

end Datum

open Datum

def Series.EncodedBy (s : Series) (d : Datum) : Prop :=
  d.Holds [("a", .integer s.step), ("b", .integer s.offset)] ∨
    IsListed d [.integer s.step, .integer s.offset]

def Argument.EncodedBy (argument : Argument) (d : Datum) : Prop :=
  match argument with
  | .identifier value => d.Holds [("kind", .text "identity"), ("parsed", .text value)]
  | .string value => d.Holds [("kind", .text "string"), ("parsed", .text value)]
  | .parity value => d.Holds [("kind", .text "nthKeyword"), ("parsed", .text value.word)]
  | .series value =>
      ∃ parsed, value.EncodedBy parsed ∧ d.Holds [("kind", .text "nthFormula"), ("parsed", parsed)]

/-- The field of an argument. Where there is none, it is left out or null. -/
def Simple.ExpressedBy : Simple → List (String × Datum) → Prop
  | .pseudoClass _ (some argument), fields =>
      ∃ d, argument.EncodedBy d ∧ fields = [("expression", d)]
  | .pseudoClass _ none, fields => fields = [] ∨ fields = [("expression", .null)]
  | _, fields => fields = []

def Simple.EncodedBy (s : Simple) (bucket : Option Bucket) (d : Datum) : Prop :=
  ∃ expression, s.ExpressedBy expression ∧ d.Holds (s.allFields bucket expression)

mutual

def Token.EncodedBy : Token → Datum → Prop
  | .simple s bucket, d => s.EncodedBy bucket d
  | .negation _ body bucket, d =>
      ∃ data items, IsListed data items ∧ EncodedAll body items ∧
        d.Holds [("type", .text "negationSelector"), ("specificityType", Bucket.plain bucket),
          ("tokens", data)]
  | .combinator value, d => d.Holds [("type", .text value.tag)]

def EncodedAll : List Token → List Datum → Prop
  | [], items => items = []
  | t :: ts, items => ∃ d ds, items = d :: ds ∧ t.EncodedBy d ∧ EncodedAll ts ds

end

/-! Every token has an encoding. -/

/-- Formulas for which the choice holds are given as pairs. -/
def Argument.encoded (paired : Series → Bool) : Argument → Datum
  | .identifier value => .mapping [("kind", .text "identity"), ("parsed", .text value)]
  | .string value => .mapping [("kind", .text "string"), ("parsed", .text value)]
  | .parity value => .mapping [("kind", .text "nthKeyword"), ("parsed", .text value.word)]
  | .series value =>
      .mapping [("kind", .text "nthFormula"), ("parsed",
        if paired value then .list [.integer value.step, .integer value.offset]
        else .mapping [("a", .integer value.step), ("b", .integer value.offset)])]

def Simple.expression (paired : Series → Bool) : Simple → List (String × Datum)
  | .pseudoClass _ (some argument) => [("expression", argument.encoded paired)]
  | _ => []

def Simple.encoded (paired : Series → Bool) (bucket : Option Bucket) (s : Simple) : Datum :=
  .mapping (s.allFields bucket (s.expression paired))

mutual

def Token.encoded (paired : Series → Bool) : Token → Datum
  | .simple s bucket => s.encoded paired bucket
  | .negation _ body bucket =>
      .mapping [("type", .text "negationSelector"), ("specificityType", Bucket.plain bucket),
        ("tokens", .list (encodedAll paired body))]
  | .combinator value => .mapping [("type", .text value.tag)]

def encodedAll (paired : Series → Bool) : List Token → List Datum
  | [] => []
  | t :: ts => t.encoded paired :: encodedAll paired ts

end

theorem argumentEncoded (paired : Series → Bool) (argument : Argument) :
    argument.EncodedBy (argument.encoded paired) := by
  cases argument with
  | identifier value | string value | parity value => exact holdsSelf _
  | series value =>
    refine ⟨_, ?_, holdsSelf _⟩
    split
    · exact .inr (.inl rfl)
    · exact .inl (holdsSelf _)

theorem simpleEncoded (paired : Series → Bool) (s : Simple) (bucket : Option Bucket) :
    s.EncodedBy bucket (s.encoded paired bucket) := by
  refine ⟨s.expression paired, ?_, holdsSelf _⟩
  cases s with
  | pseudoClass name argument =>
    cases argument with
    | none => exact .inl rfl
    | some argument => exact ⟨_, argumentEncoded paired argument, rfl⟩
  | _ => rfl

theorem encodedTokens (paired : Series → Bool) :
    (∀ t : Token, t.EncodedBy (t.encoded paired)) ∧
    ∀ tokens, EncodedAll tokens (encodedAll paired tokens) := by
  apply Token.encoded.mutual_induct
  case case1 => exact simpleEncoded paired
  case case2 => exact fun form body bucket inner => ⟨_, _, .inl rfl, inner, holdsSelf _⟩
  case case3 => exact fun value => holdsSelf _
  case case4 => rfl
  case case5 => exact fun t ts first rest => ⟨_, _, rfl, first, rest⟩

/-! Tokens that loading gives. -/

/-- Tokens in which the bodies of negations are tuples and no namespace is named by a star. -/
inductive Token.IsLoadable : Token → Prop where
  | simple {s bucket} (plain : s.space ≠ .named "*") : IsLoadable (.simple s bucket)
  | negation {body bucket} (each : ∀ t ∈ body, IsLoadable t) :
      IsLoadable (.negation .tuple body bucket)
  | combinator {value} : IsLoadable (.combinator value)

namespace Datum

/-! Fields. -/

section
variable {entries : List (String × Datum)} {key : String} {value : Datum}

theorem fieldOrSome (found : field? key entries = some value) : fieldOr key entries = value := by
  rw [fieldOr, found]
  rfl

theorem requiredText {name : String} (tag : String)
    (found : field? key entries = some (.text name)) :
    required tag key entries = .ok (.text name) := by
  rw [required, fieldOrSome found]

theorem loadBucketPlain {bucket : Option Bucket} (usual : Option Bucket)
    (found : field? "specificityType" entries = some (Bucket.plain bucket)) :
    loadBucket usual entries = .ok (Bucket.datum? bucket) := by
  rw [loadBucket, found]
  cases bucket with
  | none => rfl
  | some bucket =>
    simp only [Bucket.plain, ofLetterLetter]
    rfl

theorem loadNamespacePlain {space : Namespace} (plain : space ≠ .named "*")
    (found : field? "namespace" entries = space.plain?) :
    loadNamespace entries = .ok space.datum := by
  rw [loadNamespace, fieldOr, found]
  cases space with
  | unspecified | any => rfl
  | named name =>
    have other : name ≠ "*" := fun star => plain (congrArg _ star)
    exact congrArg Except.ok (if_neg other)

theorem loadOperatorSymbol (operator : AttributeOperator) :
    loadOperator (.text operator.symbol) = .ok (.operatorMember operator) := by
  rw [loadOperator, ofSymbolSymbol]

theorem loadSeriesEncoded {s : Series} {d : Datum} (encoded : s.EncodedBy d) :
    loadSeries d = .ok (.seriesArgument (.integer s.step) (.integer s.offset)) := by
  rcases encoded with ⟨entries, rfl, found⟩ | rfl | rfl
  · rw [loadSeries, fieldOrSome (found "a"), fieldOrSome (found "b")]
  · rfl
  · rfl

theorem loadArgumentEncoded {argument : Argument} {d : Datum} (encoded : argument.EncodedBy d) :
    loadArgument d = .ok argument.datum := by
  cases argument with
  | identifier value | string value | parity value =>
    obtain ⟨entries, rfl, found⟩ := encoded
    rw [loadArgument, fieldOrSome (found "kind"), fieldOrSome (found "parsed")]
    rfl
  | series value =>
    obtain ⟨parsed, formula, entries, rfl, found⟩ := encoded
    rw [loadArgument, fieldOrSome (found "kind"), fieldOrSome (found "parsed")]
    exact loadSeriesEncoded formula

end

/-! Tokens. -/

section
variable {s : Simple} {bucket : Option Bucket} {expression entries : List (String × Datum)}

theorem namespaceField (expressed : s.ExpressedBy expression)
    (found : ∀ key, field? key entries = (s.allFields bucket expression).lookup key) :
    field? "namespace" entries = s.space.plain? := by
  rw [found "namespace"]
  cases s with
  | universal space | element name space | «attribute» name space
  | attributeValue name operator value space =>
    cases expressed
    cases space <;> rfl
  | id name | className name | pseudoElement name =>
    cases expressed
    rfl
  | pseudoClass name argument =>
    cases argument with
    | none => rcases expressed with rfl | rfl <;> rfl
    | some argument => obtain ⟨d, _, rfl⟩ := expressed; rfl

theorem loadSimpleEncoded (plain : s.space ≠ .named "*") (expressed : s.ExpressedBy expression)
    (found : ∀ key, field? key entries = (s.allFields bucket expression).lookup key) :
    loadSimple s.tag (Bucket.datum? bucket) entries = .ok (s.datum bucket) := by
  have spaced := loadNamespacePlain plain (namespaceField expressed found)
  cases s with
  | universal space =>
    rw [Simple.tag, loadSimple, spaced]
    rfl
  | element name space | «attribute» name space =>
    rw [Simple.tag, loadSimple, requiredText _ (found "name"), spaced]
    rfl
  | id name | className name | pseudoElement name =>
    rw [Simple.tag, loadSimple, requiredText _ (found "name")]
    rfl
  | attributeValue name operator value space =>
    rw [Simple.tag, loadSimple, requiredText _ (found "operator"), requiredText _ (found "name"),
      requiredText _ (found "value"), spaced]
    show loadOperator (.text operator.symbol) >>= _ = _
    rw [loadOperatorSymbol]
    rfl
  | pseudoClass name argument =>
    have given : loadArgument (fieldOr "expression" entries) = .ok (Argument.datum? argument) := by
      cases argument with
      | none =>
        rw [fieldOr, found "expression"]
        rcases expressed with rfl | rfl <;> rfl
      | some argument =>
        obtain ⟨d, encoded, rfl⟩ := expressed
        rw [fieldOrSome (found "expression"), loadArgumentEncoded encoded]
        rfl
    rw [Simple.tag, loadSimple, requiredText _ (found "name"), given]
    rfl

theorem loadTokenSimple {d : Datum} (plain : s.space ≠ .named "*")
    (encoded : s.EncodedBy bucket d) : loadToken d = .ok (s.datum bucket) := by
  obtain ⟨expression, expressed, entries, rfl, found⟩ := encoded
  have other : combinatorOfTag? s.tag = none := by cases s <;> rfl
  have positive : s.tag ≠ "negationSelector" := by cases s <;> simp [Simple.tag]
  rw [loadToken, fieldOrSome (found "type")]
  simp only [other, loadBucketPlain _ (found "specificityType")]
  exact (if_neg positive).trans (loadSimpleEncoded plain expressed found)

theorem loadTokenCombinator {value : Combinator} {d : Datum}
    (encoded : (Token.combinator value).EncodedBy d) : loadToken d = .ok (.combinator value) := by
  obtain ⟨entries, rfl, found⟩ := encoded
  rw [loadToken, fieldOrSome (found "type")]
  cases value <;> rfl

end

theorem loadItems {data : Datum} {items : List Datum} {tokens : List Token}
    (listed : IsListed data items) (some : tokens ≠ [])
    (loaded : loadAll items = .ok (tokenData tokens)) (checked : ∀ t ∈ tokens, Checked t) : load data = .ok tokens := by
  have given : items.isEmpty = false := by
    cases items with
    | nil =>
      cases tokens with
      | nil => exact absurd rfl some
      | cons t ts => cases loaded
    | cons d ds => rfl
  rw [loadListed listed, given, loaded]
  exact checkDatum some checked

/-- Sequences are built from what encodes them, and loading gives them since they pass the check. -/
theorem loadEncoded :
    (∀ (t : Token) (d : Datum), t.EncodedBy d → Checked t → t.IsLoadable →
      loadToken d = .ok t.datum) ∧
    ∀ (tokens : List Token) (items : List Datum), EncodedAll tokens items →
      (∀ t ∈ tokens, Checked t) → (∀ t ∈ tokens, t.IsLoadable) →
        loadAll items = .ok (tokenData tokens) := by
  apply Token.EncodedBy.mutual_induct
  case case1 =>
    intro s bucket d encoded _ loadable
    cases loadable with
    | simple plain => exact loadTokenSimple plain encoded
  case case2 =>
    intro form body bucket d inner encoded checked loadable
    obtain ⟨data, items, listed, encoded, entries, rfl, found⟩ := encoded
    cases loadable with
    | negation plain =>
      cases checked with
      | negation some each =>
        have loaded := loadItems listed some (inner items encoded each plain) each
        have column := loadBucketPlain none (found "specificityType")
        rw [loadNegation (fieldOrSome (found "type")) column, fieldOrSome (found "tokens"), loaded]
        rfl
  case case3 => exact fun value d encoded _ _ => loadTokenCombinator encoded
  case case4 =>
    rintro items rfl _ _
    rfl
  case case5 =>
    rintro t ts items first rest ⟨d, ds, rfl, head, tail⟩ checked loadable
    obtain ⟨check, checks⟩ := List.forall_mem_cons.mp checked
    obtain ⟨plain, plains⟩ := List.forall_mem_cons.mp loadable
    rw [loadAll, first d head check plain, rest ds tail checks plains]
    rfl

/-! Loaded tokens. -/

/-- Namespace of the data of a simple token. -/
def space : Datum → Datum
  | .universal space _ => space
  | .element _ space _ => space
  | .attribute _ space _ => space
  | .attributeValue _ _ _ space _ => space
  | _ => .null

theorem spaceDatum (s : Simple) (bucket : Option Bucket) :
    (s.datum bucket).space = s.space.datum := by
  cases s <;> rfl

theorem loadNamespaceStar {item : List (String × Datum)} {space : Datum}
    (ok : loadNamespace item = .ok space) : space ≠ .text "*" := by
  unfold loadNamespace at ok
  split at ok
  · cases ok; simp
  · cases ok; simp
  · split at ok
    · cases ok; simp
    · next other => cases ok; simpa using other
  · cases ok

theorem loadSimpleBuilt {tag : String} {bucket built : Datum} {item : List (String × Datum)}
    (ok : loadSimple tag bucket item = .ok built) :
    built.space ≠ .text "*" ∧ ∀ body column, built ≠ .negation body column := by
  unfold loadSimple at ok
  split at ok
  · obtain ⟨space, spaced, ok⟩ := bindOk ok
    cases ok
    exact ⟨loadNamespaceStar spaced, by simp⟩
  · obtain ⟨name, _, ok⟩ := bindOk ok
    obtain ⟨space, spaced, ok⟩ := bindOk ok
    cases ok
    exact ⟨loadNamespaceStar spaced, by simp⟩
  · obtain ⟨name, _, ok⟩ := bindOk ok
    cases ok
    simp [space]
  · obtain ⟨name, _, ok⟩ := bindOk ok
    cases ok
    simp [space]
  · obtain ⟨name, _, ok⟩ := bindOk ok
    obtain ⟨space, spaced, ok⟩ := bindOk ok
    cases ok
    exact ⟨loadNamespaceStar spaced, by simp⟩
  · obtain ⟨symbol, _, ok⟩ := bindOk ok
    obtain ⟨operator, _, ok⟩ := bindOk ok
    obtain ⟨name, _, ok⟩ := bindOk ok
    obtain ⟨value, _, ok⟩ := bindOk ok
    obtain ⟨space, spaced, ok⟩ := bindOk ok
    cases ok
    exact ⟨loadNamespaceStar spaced, by simp⟩
  · obtain ⟨name, _, ok⟩ := bindOk ok
    cases ok
    simp [space]
  · obtain ⟨name, _, ok⟩ := bindOk ok
    obtain ⟨argument, _, ok⟩ := bindOk ok
    cases ok
    simp [space]
  · cases ok

theorem loadSimpleLoadable {tag : String} {bucket built : Datum} {item : List (String × Datum)}
    {t : Token} (ok : loadSimple tag bucket item = .ok built) (checked : checkToken built = .ok t) :
    t.IsLoadable := by
  obtain ⟨plain, positive⟩ := loadSimpleBuilt ok
  obtain ⟨rfl, _⟩ := checkedStages.1 built t checked
  cases t with
  | simple s bucket =>
    rw [Token.datum, spaceDatum] at plain
    exact .simple fun star => plain (congrArg Namespace.datum star)
  | negation form body bucket => exact absurd rfl (positive _ _)
  | combinator value => exact .combinator

theorem checkBuilt {items : List Datum} {tokens : List Token}
    (ok : (Datum.list items).check = .ok tokens) : checkAll items = .ok tokens := by
  obtain ⟨⟨form, tokens⟩, checked, rfl⟩ := mapOk ok
  rw [checkBody] at checked
  split at checked
  · cases checked
  · obtain ⟨tokens, given, same⟩ := bindOk checked
    cases same
    exact given

theorem loadedLoadable {data : Datum} {items : List Datum} {tokens : List Token}
    (listed : IsListed data items)
    (each : ∀ built, loadAll items = .ok built → ∀ tokens, checkAll built = .ok tokens →
      ∀ t ∈ tokens, t.IsLoadable)
    (ok : load data = .ok tokens) : ∀ t ∈ tokens, t.IsLoadable := by
  rw [loadListed listed] at ok
  split at ok
  · cases ok
  · obtain ⟨built, loaded, ok⟩ := bindOk ok
    exact each built loaded tokens (checkBuilt ok)

theorem loadTokenLoadable {item : List (String × Datum)} {built : Datum} {t : Token}
    (body : ∀ tokens, loadBody item = .ok tokens → ∀ t ∈ tokens, t.IsLoadable)
    (ok : loadToken (.mapping item) = .ok built) (checked : checkToken built = .ok t) :
    t.IsLoadable := by
  unfold loadToken at ok
  split at ok
  · split at ok
    · cases ok
      cases checked
      exact .combinator
    obtain ⟨bucket, _, ok⟩ := bindOk ok
    split at ok
    · obtain ⟨tokens, loaded, ok⟩ := bindOk ok
      cases ok
      have plain := body tokens loaded
      rw [loadBodyField] at loaded
      -- The body has passed the check before, so its data gives the same tokens again.
      obtain ⟨some, each⟩ := checkChecked (loadChecked loaded)
      have again := checkBodyDatum .tuple some fun t member => checkTokenDatum (each t member)
      obtain ⟨column, _, checked⟩ := bindOk checked
      obtain ⟨_, same, checked⟩ := bindOk checked
      cases again.symm.trans same
      cases checked
      exact .negation plain
    · exact loadSimpleLoadable ok checked
  · cases ok

theorem loadableStages :
    (∀ data tokens, load data = .ok tokens → ∀ t ∈ tokens, t.IsLoadable) ∧
    (∀ items built, loadAll items = .ok built → ∀ tokens, checkAll built = .ok tokens →
      ∀ t ∈ tokens, t.IsLoadable) ∧
    (∀ d built, loadToken d = .ok built → ∀ t, checkToken built = .ok t → t.IsLoadable) ∧
    (∀ item tokens, loadBody item = .ok tokens → ∀ t ∈ tokens, t.IsLoadable) := by
  apply load.mutual_induct
  case case1 | case3 =>
    intro items none tokens ok
    simp [load, none] at ok
  case case2 => exact fun items _ each tokens ok => loadedLoadable (.inl rfl) each ok
  case case4 => exact fun items _ each tokens ok => loadedLoadable (.inr rfl) each ok
  case case5 =>
    intro other list tuple tokens ok
    rw [load.eq_3 _ list tuple] at ok
    cases ok
  case case6 =>
    intro item tag tagged value combinator built ok t checked
    simp only [loadToken, tagged, combinator] at ok
    cases ok
    cases checked
    exact .combinator
  case case7 => exact fun item _ _ _ body built ok t checked => loadTokenLoadable body ok checked
  case case8 =>
    intro item untagged built ok
    rw [loadToken] at ok
    split at ok
    · next tag tagged => exact (untagged tag tagged).elim
    · cases ok
  case case9 =>
    intro other mapping built ok
    rw [loadToken.eq_2 _ mapping] at ok
    cases ok
  case case10 =>
    intro built ok tokens checked
    cases ok
    cases checked
    exact fun t none => absurd none List.not_mem_nil
  case case11 =>
    intro d ds first rest built ok tokens checked
    obtain ⟨head, built, ok⟩ := bindOk ok
    obtain ⟨tail, others, ok⟩ := bindOk ok
    cases ok
    obtain ⟨t, given, checked⟩ := bindOk checked
    obtain ⟨ts, givens, checked⟩ := bindOk checked
    cases checked
    exact List.forall_mem_cons.mpr ⟨first head built t given, rest tail others ts givens⟩
  case case12 =>
    intro tokens ok
    cases ok
  case case13 =>
    intro value rest each tokens ok
    rw [loadBody, if_pos rfl] at ok
    exact each tokens ok
  case case14 =>
    intro key value rest other each tokens ok
    rw [loadBody, if_neg other] at ok
    exact each tokens ok

/-- Checked tokens are loaded from whatever encodes them, unless the body of a negation is no tuple
or a namespace is named by a star. Every sequence has an encoding, whichever of its formulas are
given as pairs, and no data at all is loaded as tokens of those two kinds. -/
theorem encodingLoads :
    (∀ (raw : Datum) (tokens : List Token), raw.check = .ok tokens →
      (∀ t ∈ tokens, t.IsLoadable) → ∀ data items, IsListed data items →
        EncodedAll tokens items → data.load = .ok tokens) ∧
    (∀ paired tokens, EncodedAll tokens (encodedAll paired tokens)) ∧
    ∀ (data : Datum) (tokens : List Token), data.load = .ok tokens →
      ∀ t ∈ tokens, t.IsLoadable := by
  refine ⟨?_, fun paired => (encodedTokens paired).2, loadableStages.1⟩
  intro raw tokens ok loadable data items listed encoded
  obtain ⟨some, checked⟩ := checkChecked ok
  exact loadItems listed some (loadEncoded.2 tokens items encoded checked loadable) checked

theorem encodingLoadsNested :
    let every : Token := .simple (.attributeValue "a" .includes "" .any) none
    let count : Token := .simple (.pseudoClass "nth-child" (some (.series ⟨2, -1⟩))) (some .a)
    let element : Token := .usual (.element "b" (.named ""))
    let tokens : List Token := [.not [every, .not [count]], .combinator .child, element]
    let data : Datum := .tuple (encodedAll (fun s => s.step = 2) tokens)
    (Datum.list (tokenData tokens)).check = .ok tokens ∧ (∀ t ∈ tokens, t.IsLoadable) ∧
      data.load = .ok tokens := by
  intro every count element tokens data
  have ok : (Datum.list (tokenData tokens)).check = .ok tokens := rfl
  have inner : ∀ t ∈ [count], t.IsLoadable := by
    simp only [List.mem_singleton, forall_eq]
    exact .simple (by simp [Simple.space])
  have body : ∀ t ∈ [every, .not [count]], t.IsLoadable :=
    List.forall_mem_cons.mpr ⟨.simple (by simp [Simple.space]), by
      simp only [List.mem_singleton, forall_eq]
      exact .negation inner⟩
  have loadable : ∀ t ∈ tokens, t.IsLoadable := by
    simp only [tokens, List.forall_mem_cons]
    exact ⟨.negation body, .combinator, .simple (by simp [Simple.space]), by simp⟩
  obtain ⟨loads, encodes, _⟩ := encodingLoads
  exact ⟨ok, loadable, loads _ tokens ok loadable data _ (.inr rfl) (encodes _ tokens)⟩

/-- A namespace that is named by a star passes the check, but in data a star is any namespace. -/
example :
    let star : Token := .usual (.universal (.named "*"))
    (Datum.list [star.datum]).check = .ok [star] ∧
      (Datum.list [star.encoded fun _ => false]).load = .ok [.usual (.universal .any)] := ⟨rfl, rfl⟩

end Datum

end SelectorRank
