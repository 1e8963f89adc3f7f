import SelectorRank.Proofs.Parse
import SelectorRank.Proofs.Token.Lexemes

/-! Lexemes of canonical texts. Names and values of tokens come back or have at most so many marks;
those of the lexemes come back or have fewer. Each text is followed up to its end with what may
stand behind it. -/
namespace SelectorRank
open Spelling Unescape

variable {y : Lexicon} {n : Nat} {star : Prop} {rest : List Char}

/-- A text where a compound begins. -/
structure Leads (y : Lexicon) (text : List Char) : Prop where
  hold : ∀ before start, before ≠ some (.delim ':') → (lexemesFrom 0 start text).Hold y before
  visible : EndsAt isSpace text

structure Joins (y : Lexicon) (text : List Char) : Prop where
  hold : ∀ before start, (lexemesFrom 0 start text).Hold y before
  begins : BeginsPart text
  point : ∀ cs, text = '.' :: cs → EndsAt Char.isDigit cs

theorem joinsTrails {text : List Char} (joins : Joins y text) : Trails y text where
  hold before start _ _ := joins.hold before start
  ends := (followsEnds (beginsFollows joins.begins)).1.1
  point := joins.point

theorem joinsLeads {text : List Char} (joins : Joins y text) : Leads y text where
  hold before start _ := joins.hold before start
  visible := by
    obtain ⟨d, cs, rfl, sign⟩ := joins.begins
    have each : ∀ d ∈ ['#', '.', '[', ':'], isSpace d = false := by decide
    intro e head
    cases head
    exact each d sign

/-! Marks and blanks. -/

theorem delimFree {before : Option Shape} {d : Char} (other : d ≠ '|') :
    y.Allows before (.delim d) := by
  unfold Lexicon.Allows
  split <;> first | contradiction | trivial | simp_all

section
variable {d : Char} (mark : d ∈ marks)
  (after : ∀ start, (lexemesFrom 0 start rest).Hold y (some (.delim d)))
include mark after

theorem markHold {before : Option Shape} (allowed : y.Allows before (.delim d)) (start : Nat) :
    (lexemesFrom 0 start (d :: rest)).Hold y before :=
  cutHold (cutMark rest mark) allowed after

theorem markTrails : Trails y (d :: rest) where
  hold before start inner _ := by
    refine markHold mark after ?_ start
    by_cases bar : d = '|'
    · subst bar
      exact fun starts => absurd (starts.symm.trans inner) (by simp)
    · exact delimFree bar
  ends := by
    have each : ∀ d ∈ marks, isNameChars d = false ∧ d ≠ '\\' := by decide
    intro e head
    cases head
    exact each d mark
  point := by
    rintro cs same
    cases same
    exact absurd mark (by decide)

theorem markLeads (other : d ≠ '|') : Leads y (d :: rest) where
  hold before start _ := markHold mark after (delimFree other) start
  visible := by
    have each : ∀ d ∈ marks, isSpace d = false := by decide
    intro e head
    cases head
    exact each d mark

end

theorem closeTrails {d : Char} (close : d = ')' ∨ d = ']') (trails : Trails y rest) :
    Trails y (d :: rest) := by
  rcases close with rfl | rfl
  · exact markTrails (by decide) (fun start => trails.hold _ start (by decide) (by simp))
  · exact markTrails (by decide) (fun start => trails.hold _ start (by decide) (by simp))

theorem leadsTrails {d : Char} {text : List Char} (mark : d ∈ ['|', '(']) (leads : Leads y text) :
    Trails y (d :: text) := by
  simp only [List.mem_cons, List.not_mem_nil, or_false] at mark
  rcases mark with rfl | rfl
  · exact markTrails (by decide) (fun start => leads.hold _ start (by simp))
  · exact markTrails (by decide) (fun start => leads.hold _ start (by simp))

theorem blankHold {text : List Char} (leads : Leads y text) (before : Option Shape) (start : Nat) :
    (lexemesFrom 0 start (' ' :: text)).Hold y before :=
  cutHold (cutBlank leads.visible) trivial (fun start => leads.hold _ start (by simp))

theorem endTrails : Trails y [] where
  hold _ _ _ _ := trivial
  ends := by simp [EndsName]
  point := by simp

theorem blankTrails {text : List Char} (leads : Leads y text) : Trails y (' ' :: text) where
  hold before start _ _ := blankHold leads before start
  ends := by
    intro e head
    cases head
    decide
  point := by simp

theorem combinatorTrails {text : List Char} (combinator : Combinator) (leads : Leads y text) :
    Trails y (combinator.chars ++ text) := by
  have signed : ∀ {d : Char}, d ∈ ['>', '~'] → Trails y (' ' :: d :: ' ' :: text) := by
    intro d sign
    simp only [List.mem_cons, List.not_mem_nil, or_false] at sign
    rcases sign with rfl | rfl
    · exact blankTrails (markLeads (by decide) (blankHold leads _) (by decide))
    · exact blankTrails (markLeads (by decide) (blankHold leads _) (by decide))
  cases combinator with
  | descendant => exact blankTrails leads
  | child => exact signed (by decide)
  | sibling => exact signed (by decide)
  | adjacent =>
    have plus : Leads y ('+' :: ' ' :: text) := {
      hold := fun before start _ =>
        cutHold (cutPlus text) (delimFree (by decide)) (blankHold leads _)
      visible := by
        intro e head
        cases head
        decide }
    exact blankTrails plus

theorem commaTrails {text : List Char} (leads : Leads y text) : Trails y (',' :: ' ' :: text) :=
  markTrails (by decide) (blankHold leads _)

/-! Names and values. -/

theorem sideLeads {side : Option String} (named : ∀ m ∈ side, (returning (n + 1) star).name m)
    (trails : Trails (returning n False) rest) :
    Leads (returning n False) (sideChars side ++ rest) := by
  cases side with
  | none => exact markLeads (by decide) (fun start => trails.hold _ start rfl (by simp)) (by decide)
  | some name =>
    have given := named name rfl
    refine ⟨nameHold given trails, ?_⟩
    obtain ⟨c, cs, text, visible⟩ := nameNoSpace given.1.2 (by simpa using given.1.1)
    intro d head
    rw [sideChars, text] at head
    cases head
    exact visible

theorem spacedLeads {space : Namespace} {side : Option String}
    (spaced : (returning (n + 1) star).vocabulary.Spaces space)
    (named : ∀ m ∈ side, (returning (n + 1) star).name m)
    (trails : Trails (returning n False) rest) :
    Leads (returning n False) (space.chars ++ (sideChars side ++ rest)) := by
  have inner := sideLeads named trails
  cases space with
  | unspecified => exact inner
  | named m =>
    have fronted : ∀ k ∈ some m, (returning (n + 1) star).name k := by simpa using spaced.1
    have leads := sideLeads fronted (leadsTrails (d := '|') (by decide) inner)
    simpa [Namespace.chars, sideChars] using leads
  | any =>
    exact markLeads (by decide)
      (fun start => (leadsTrails (d := '|') (by decide) inner).hold _ start rfl (by simp))
      (by decide)

theorem valueHold {value : String} (valued : (returning (n + 1) star).vocabulary.value value)
    (trails : Trails (returning n False) rest) (before : Option Shape) (start : Nat) :
    (lexemesFrom 0 start (Spelling.string value.toList ++ rest)).Hold (returning n False)
      before := by
  have given : HasNoNull value.toList ∧
      (Clear value.toList ∨ markCount value.toList ≤ n + 1) := by
    rcases valued with ⟨⟨_, visible⟩, marks⟩ | given
    · exact ⟨visible, marks.imp_left And.left⟩
    · exact given
  obtain ⟨visible, marks⟩ := given
  have spells := stringSpells visible
  refine cutHold (cutStringText rest visible) ⟨?_, ?_⟩
    (fun start => trails.hold _ start rfl (by simp))
  · rw [String.toList_ofList]
    exact ofStringVisible (spellsNoNull spells visible)
  · rw [String.toList_ofList]
    rcases rereadsFew (rereadsString visible) (ofStringSpelled spells) marks with
      ⟨read, clear⟩ | few
    · rw [read]
      exact .inl clear
    · exact .inr few

theorem plainHold {name : String} (plain : IsPlainIdent name)
    (trails : Trails (returning n False) rest) (before : Option Shape) (start : Nat) :
    (lexemesFrom 0 start (name.toList ++ rest)).Hold (returning n False) before := by
  have named := plainReadName plain
  have cut := cutIdent named.1 named.2 trails.ends
  rw [identifierPlain plain.1 plain.2, String.ofList_toList] at cut
  refine cutHold cut ⟨⟨⟨?_, named.1.visible⟩, .inl ⟨named.1.clear, named.2⟩⟩, fun _ => plain⟩
    (fun start => trails.hold _ start rfl (by simp))
  simpa using named.1.some

/-! Arguments. -/

theorem cutSingle {front : List Char} {name : String} (cut : Cut front (.ident name) rest) :
    ¬ Doubled front := by
  intro doubled
  obtain ⟨c, cs, rfl, scanned⟩ := cut
  unfold Doubled at doubled
  split at doubled
  · next cs same =>
    cases same
    have delim : scan '-' ('-' :: cs ++ rest) = .lexeme (.delim '-') 1 :=
      scanDelim rfl rfl (by decide) rfl
    rw [delim] at scanned
    cases scanned
  · exact doubled

theorem seriesHold {t : List Char} (chars : ∀ c ∈ t, Text.IsSeriesChar c)
    (trails : Trails (returning n False) rest) (before : Option Shape) (start : Nat)
    (colon : before ≠ some (.delim ':')) :
    (lexemesFrom 0 start (t ++ ')' :: rest)).Hold (returning n False) before := by
  induction size : t.length using Nat.strong_induction_on generalizing t before start with
  | h m ih =>
    by_cases some : t = []
    · subst some
      exact (markLeads (by decide) (fun start => trails.hold _ start (by decide) (by simp))
        (by decide)).hold before start colon
    · obtain ⟨front, back, shape, rfl, long, worded, cut⟩ := cutSeries rest chars some
      have shorter : back.length < m := by
        have some := List.length_pos_of_ne_nil long
        simp only [List.length_append] at size
        omega
      have later : ∀ before, before ≠ Option.some (Shape.delim ':') → ∀ start,
          (lexemesFrom 0 start (back ++ ')' :: rest)).Hold (returning n False) before :=
        fun before colon start => ih _ shorter (fun c member => chars c (by simp [member])) before
          start colon rfl
      rw [List.append_assoc]
      rcases worded with rfl | rfl | ⟨c, sign, rfl, rfl⟩
      · have single := cutSingle cut
        have marked : '\\' ∉ front := fun member =>
          absurd (chars '\\' (by simp [member])) (by unfold Text.IsSeriesChar; decide)
        have visible : HasNoNull front := by
          rintro c member rfl
          exact absurd (chars '\x00' (by simp [member])) (by unfold Text.IsSeriesChar; decide)
        refine cutHold cut ⟨⟨⟨?_, ?_⟩, ?_⟩, fun same => absurd same colon⟩ (later _ (by simp))
        · simpa using long
        · rwa [String.toList_ofList]
        · rw [String.toList_ofList]
          exact .inl ⟨clearUnmarked marked, single⟩
      · exact cutHold cut trivial (later _ (by simp))
      · rcases sign with rfl | rfl
        · exact cutHold cut trivial (later _ (by simp))
        · exact cutHold cut trivial (later _ (by simp))

theorem argumentHold {counting : Bool} {argument : Argument}
    (given : (returning (n + 1) star).vocabulary.Gives counting argument)
    (trails : Trails (returning n False) rest) (start : Nat) :
    (lexemesFrom 0 start (argument.chars ++ ')' :: rest)).Hold (returning n False)
      (some (.delim '(')) := by
  have close := closeTrails (.inl rfl) trails
  cases argument with
  | identifier value =>
    have named : (returning (n + 1) star).name value := given.2
    exact nameHold named close _ start (by simp)
  | string value => exact valueHold given.2 close _ start
  | parity value => exact plainHold (parityPlain value) close _ start
  | series value => exact seriesHold (Series.textChars value) trails _ start (by simp)

/-! Parts of compounds. -/

theorem lowersPlain {name : String} (lowers : (returning n star).Lowers name) :
    IsPlainIdent name := by
  obtain ⟨raw, _, plain, rfl⟩ := lowers
  rwa [loweredPlain plain]

theorem comparisonTrails {comparison : Option (AttributeOperator × String)}
    (valued : ∀ given ∈ comparison, (returning (n + 1) star).vocabulary.value given.2)
    (trails : Trails (returning n False) rest) :
    Trails (returning n False) (comparisonChars comparison ++ ']' :: rest) := by
  have close : Trails (returning n False) (']' :: rest) := closeTrails (.inr rfl) trails
  cases comparison with
  | none => exact close
  | some given =>
    obtain ⟨operator, value⟩ := given
    have quoted := valueHold (valued _ rfl) close (some (.delim '='))
    have signed : ∀ {d : Char}, d ∈ ['~', '|', '^', '$', '*'] → Trails (returning n False)
        (d :: '=' :: (Spelling.string value.toList ++ ']' :: rest)) := by
      intro d sign
      have each : ∀ d ∈ ['~', '|', '^', '$', '*'], d ∈ marks ∧ d ≠ ':' := by decide
      obtain ⟨mark, colon⟩ := each d sign
      have equals := markLeads (by decide) quoted (by decide)
      exact markTrails mark (fun start => equals.hold _ start (by simpa using colon))
    cases operator with
    | equals => exact markTrails (by decide) quoted
    | includes => exact signed (by decide)
    | dashMatch => exact signed (by decide)
    | prefixMatch => exact signed (by decide)
    | suffixMatch => exact signed (by decide)
    | substring => exact signed (by decide)

theorem attributeHold {name : String} {space : Namespace}
    {comparison : Option (AttributeOperator × String)}
    (spaced : (returning (n + 1) star).vocabulary.Spaces space)
    (named : (returning (n + 1) star).name name)
    (valued : ∀ given ∈ comparison, (returning (n + 1) star).vocabulary.value given.2)
    (trails : Trails (returning n False) rest) (before : Option Shape) (start : Nat) :
    (lexemesFrom 0 start ((attributeToken name space comparison).chars ++ rest)).Hold
      (returning n False) before := by
  have names : ∀ m ∈ some name, (returning (n + 1) star).name m := by simpa using named
  have leads := spacedLeads spaced names (comparisonTrails valued trails)
  rw [attributeChars]
  simp only [List.cons_append, List.append_assoc, List.nil_append]
  exact markHold (by decide) (fun start => leads.hold _ start (by simp)) (delimFree (by decide))
    start

theorem colonHold {name : String} {text : List Char} (plain : IsPlainIdent name)
    (trails : Trails (returning n False) text) (before : Option Shape) (start : Nat) :
    (lexemesFrom 0 start (':' :: (name.toList ++ text))).Hold (returning n False) before :=
  markHold (by decide) (plainHold plain trails _) (delimFree (by decide)) start

theorem hashHold {name : String} (named : (returning (n + 1) star).id name)
    (trails : Trails (returning n False) rest) (before : Option Shape) (start : Nat) :
    (lexemesFrom 0 start ('#' :: identifier name.toList ++ rest)).Hold (returning n False)
      before := by
  obtain ⟨⟨known, visible⟩, marks⟩ := named
  have some : name.toList ≠ [] := by simpa using known
  refine cutHold (cutHashText visible some trails.ends) ⟨?_, ?_⟩
    (fun start => trails.hold _ start rfl (by simp))
  · exact spelledName (identifierSpells visible) visible (identifierSome visible some)
  · rw [String.toList_ofList]
    rcases rereadsFew (rereadsIdentifier visible)
      (fun clear => nameRead ⟨visible, some, clear⟩) marks with ⟨read, clear⟩ | few
    · rw [read]
      exact .inl clear
    · exact .inr few

theorem classHold {name : String} (named : (returning (n + 1) star).name name)
    (trails : Trails (returning n False) rest) (before : Option Shape) (start : Nat) :
    (lexemesFrom 0 start (['.'] ++ (identifier name.toList ++ rest))).Hold (returning n False)
      before := by
  have some : name.toList ≠ [] := by simpa using named.1.1
  exact cutHold (cutPoint (identifierNoDigit rest named.1.2 some)) (delimFree (by decide))
    (fun start => nameHold named trails _ start (by simp))

theorem qualifiesJoins {opens : Bool} {t : Token}
    (qualifies : (returning (n + 1) star).vocabulary.Qualifies opens t)
    (trails : Trails (returning n False) rest) :
    Joins (returning n False) (t.chars ++ rest) := by
  refine ⟨?_, qualifiesBegins qualifies rest, ?_⟩
  · intro before start
    cases qualifies with
    | @id name named =>
      have given : (returning (n + 1) star).id name := named
      exact hashHold given trails before start
    | @className name named =>
      have given : (returning (n + 1) star).name name := named
      exact classHold given trails before start
    | @presence name space spaced named =>
      have none : ∀ given : AttributeOperator × String, given ∈ Option.none →
          (returning (n + 1) star).vocabulary.value given.2 := by simp
      exact attributeHold spaced named none trails before start
    | @comparison name operator value space spaced named valued =>
      have given : ∀ given ∈ some (operator, value),
          (returning (n + 1) star).vocabulary.value given.2 := by simpa using valued
      exact attributeHold spaced named given trails before start
    | pseudoClass named => exact colonHold (lowersPlain named.1) trails before start
    | function named given =>
      have opened := markTrails (d := '(') (by decide) (argumentHold given trails)
      rw [pseudoClassChars, argumentChars]
      simpa using colonHold (lowersPlain named.1) opened before start
  · rintro cs same
    cases qualifies with
    | @className name named =>
      have given : (returning (n + 1) star).name name := named
      cases same
      exact identifierNoDigit _ given.1.2 (by simpa using given.1.1)
    | _ => cases same

theorem headsLeads {t : Token} (heads : (returning (n + 1) star).vocabulary.Heads t)
    (trails : Trails (returning n False) rest) :
    Leads (returning n False) (t.chars ++ rest) := by
  cases heads with
  | @universal space spaced _ =>
    have names : ∀ m ∈ none, (returning (n + 1) star).name m := by simp
    have leads := spacedLeads spaced names trails
    rwa [← List.append_assoc, ← testChars] at leads
  | @element name space spaced named =>
    have names : ∀ m ∈ some name, (returning (n + 1) star).name m := by simpa using named.1
    have leads := spacedLeads spaced names trails
    rwa [← List.append_assoc, ← testChars] at leads

/-! Selectors. -/

structure Places.Returns (p : Places) (y : Lexicon) : Prop where
  head {t rest} : p.head t → Trails y rest → Leads y (t.chars ++ rest)
  part {opens t rest} : p.part opens t → Trails y rest → Joins y (t.chars ++ rest)
  last {t rest} : p.last t → Trails y rest → Joins y (t.chars ++ rest)

section
variable {p : Places} {opens : Bool} {tokens : List Token} (returns : p.Returns y)
include returns

theorem partsTrails {parts : List Token} (all : ∀ t ∈ parts, p.part opens t)
    (trails : Trails y rest) : Trails y (charsOf parts ++ rest) := by
  induction parts with
  | nil => exact trails
  | cons t parts ih =>
    obtain ⟨first, others⟩ := List.forall_mem_cons.mp all
    rw [charsOf, List.append_assoc]
    exact joinsTrails (returns.part first (ih others))

theorem compoundLeads (whole : IsCompound p opens tokens) (trails : Trails y rest) :
    Leads y (charsOf tokens ++ rest) := by
  cases whole with
  | bare =>
    exact markLeads (by decide) (fun start => trails.hold _ start rfl (by simp)) (by decide)
  | headed first parts =>
    rw [charsOf, List.append_assoc]
    exact returns.head first (partsTrails returns parts trails)
  | headless first parts =>
    rw [charsOf, List.append_assoc]
    exact joinsLeads (returns.part first (partsTrails returns parts trails))

theorem sequenceLeads (sequence : IsSequence p opens tokens) (trails : Trails y rest) :
    Leads y (charsOf tokens ++ rest) := by
  induction sequence with
  | compound whole => exact compoundLeads returns whole trails
  | @ended opens tokens last front closes =>
    have joins := returns.last closes trails
    have text : charsOf (tokens ++ [last]) ++ rest = charsOf tokens ++ (last.chars ++ rest) := by
      simp [charsOfAppend, charsOf]
    rw [text]
    rcases front with rfl | ⟨whole, _⟩
    · exact joinsLeads joins
    · exact compoundLeads returns whole (joinsTrails joins)
  | @combined opens tokens combinator next front _ ih =>
    have text : charsOf (tokens ++ .combinator combinator :: next) ++ rest =
        charsOf tokens ++ (combinator.chars ++ (charsOf next ++ rest)) := by
      simp [charsOfAppend, charsOf, Token.chars]
    rw [text]
    exact compoundLeads returns front (combinatorTrails combinator ih)

end

theorem insideReturns :
    (returning (n + 1) star).vocabulary.inside.Returns (returning n False) where
  head := headsLeads
  part := qualifiesJoins
  last := False.elim

theorem negationJoins {body : List Token}
    (holds : IsSequence (returning (n + 1) star).vocabulary.inside false body)
    (trails : Trails (returning n False) rest) :
    Joins (returning n False) ((Token.not body).chars ++ rest) := by
  have plain : IsPlainIdent "not" := by unfold IsPlainIdent; decide
  have inner := sequenceLeads insideReturns holds (closeTrails (.inl rfl) trails)
  have opened := leadsTrails (d := '(') (by decide) inner
  rw [notChars]
  refine ⟨colonHold plain opened, ⟨':', _, rfl, by decide⟩, ?_⟩
  rintro cs same
  cases same

theorem outsideReturns :
    (returning (n + 1) star).vocabulary.outside.Returns (returning n False) where
  head := headsLeads
  part part trails := by
    cases part with
    | simple qualifies => exact qualifiesJoins qualifies trails
    | negation holds => exact negationJoins holds trails
  last ends trails := by
    cases ends with
    | @pseudoElement name named =>
      have inner := colonHold (lowersPlain named) trails
      refine ⟨fun before start => ?_, ⟨':', _, rfl, by decide⟩, by rintro cs same; cases same⟩
      exact markHold (by decide) (inner _) (delimFree (by decide)) start

theorem listTrails {seqs : List (List Token)}
    (shaped : ∀ tokens ∈ seqs, (returning (n + 1) star).vocabulary.IsSelector tokens) :
    Trails (returning n False) (listTail seqs) := by
  induction seqs with
  | nil => exact endTrails
  | cons tokens seqs ih =>
    obtain ⟨shape, others⟩ := List.forall_mem_cons.mp shaped
    exact commaTrails (sequenceLeads outsideReturns shape (ih others))

theorem listStarts {tokens : List Token} {seqs : List (List Token)}
    (shaped : ∀ given ∈ tokens :: seqs, (returning (n + 1) star).vocabulary.IsSelector given)
    (visible : HasNoNull (charsOf tokens ++ listTail seqs)) :
    (Cursor.ofSource (charsOf tokens ++ listTail seqs)).Starts (returning n False) := by
  obtain ⟨shape, others⟩ := List.forall_mem_cons.mp shaped
  have leads := sequenceLeads outsideReturns shape (listTrails others)
  refine ⟨none, rfl, ?_⟩
  rw [Cursor.Behind, Cursor.ofSource, lexemes, readableWhole visible]
  exact leads.hold none 0 (by simp)

end SelectorRank
