import SelectorRank.Proofs.Declaration.Comparable

/-! Comparison of declarations is a preorder with faults. A fault is met from either side, and never
between two declarations that a third one stands between. -/
namespace SelectorRank.Declaration

variable {x y z : Declaration} {o p : Ordering}

def Ties (x y : Declaration) : Prop :=
  ∃ level weight, x.precedence = .ok level ∧ y.precedence = .ok level ∧
    x.specificity = .ok weight ∧ y.specificity = .ok weight

theorem faultSymm (failed : ∃ fault, x.compare y = .error fault) :
    ∃ fault, y.compare x = .error fault := by
  obtain ⟨fault, failed⟩ := failed
  cases back : y.compare x with
  | error other => exact ⟨other, rfl⟩
  | ok o => cases (compareSwap back).symm.trans failed

theorem tiesCompare (ties : Ties x y) : x.compare y = .ok .eq := by
  obtain ⟨level, weight, left, right, first, second⟩ := ties
  exact compareFromSource (.level left right rfl first second (.inr (.inr ⟨rfl, rfl⟩)))

theorem compareTies (ok : x.compare y = .ok .eq) : Ties x y := by
  cases compareSource ok with
  | level left right same first second weighed =>
    obtain rfl := rankUnique same
    have equal := by simpa using weighed
    subst equal
    exact ⟨_, _, left, right, first, second⟩

theorem tiesIff (ok : x.compare y = .ok o) : o = .eq ↔ Ties x y := by
  constructor
  · rintro rfl
    exact compareTies ok
  · intro ties
    exact Except.ok.inj (ok.symm.trans (tiesCompare ties))

/-! Chains. A comparison that does not go to the second is a lead of the first if it was given later,
so leads at places of our own choice carry it on. -/

theorem leadsOfLE {i j : Nat} (ok : x.compare y = .ok o) (notBehind : o.isLE)
    (later : o = .lt ∨ j < i) : Leads i x j y := by
  cases o with
  | lt => exact .inl ok
  | eq => exact .inr ⟨ok, by simpa using later⟩
  | gt => cases notBehind

theorem compareLE (xy : x.compare y = .ok o) (yz : y.compare z = .ok p) (first : o.isLE)
    (second : p.isLE) : ∃ q, x.compare z = .ok q ∧ q.isLE := by
  have leads : Leads 2 x 0 z := leadsTrans (leadsOfLE (j := 1) xy first (.inr (by decide)))
    (leadsOfLE yz second (.inr (by decide)))
  rcases leads with wins | ⟨ties, _⟩
  · exact ⟨_, wins, rfl⟩
  · exact ⟨_, ties, rfl⟩

theorem winsOfLeads {i j : Nat} (leads : Leads i x j z) (early : i ≤ j) : x.compare z = .ok .lt := by
  rcases leads with wins | ⟨_, late⟩
  · exact wins
  · omega

theorem compareLT (xy : x.compare y = .ok o) (yz : y.compare z = .ok p) (first : o.isLE)
    (second : p.isLE) (wins : o = .lt ∨ p = .lt) : x.compare z = .ok .lt := by
  -- the first is placed before the third, which only a win makes up for
  rcases wins with rfl | rfl
  · have leads : Leads 0 x 1 z := leadsTrans (leadsOfLE (j := 2) xy first (.inl rfl))
      (leadsOfLE yz second (.inr (by decide)))
    exact winsOfLeads leads (by decide)
  · have leads : Leads 1 x 2 z := leadsTrans (leadsOfLE (j := 0) xy first (.inr (by decide)))
      (leadsOfLE yz second (.inl rfl))
    exact winsOfLeads leads (by decide)

/-- Comparing raises from one side exactly if it does from the other; answers from the two sides are
opposite, and a tie is one of level and weight. What is not behind a declaration, which is not behind
a third one, can be compared with that one and is not behind it, and wins if there is a win between. -/
theorem comparePreorder (x y z : Declaration) :
    ((∃ fault, x.compare y = .error fault) ↔ ∃ fault, y.compare x = .error fault) ∧
    (∀ o, x.compare y = .ok o → y.compare x = .ok o.swap ∧ (o = .eq ↔ Ties x y)) ∧
    ∀ o p, x.compare y = .ok o → y.compare z = .ok p → o.isLE → p.isLE →
      ∃ q, x.compare z = .ok q ∧ q.isLE ∧ (o = .lt ∨ p = .lt → q = .lt) := by
  refine ⟨⟨faultSymm, faultSymm⟩, fun o ok => ⟨compareSwap ok, tiesIff ok⟩, ?_⟩
  intro o p xy yz first second
  obtain ⟨q, xz, third⟩ := compareLE xy yz first second
  refine ⟨q, xz, third, fun wins => ?_⟩
  exact Except.ok.inj (xz.symm.trans (compareLT xy yz first second wins))

theorem comparePreorderMisplaced :
    let one := Selector.ofTokens [.usual (.className "a")]
    let other := Selector.ofTokens [.usual (.className "b")]
    let x : Declaration := ⟨.known .author, .integer 1, .selector one⟩
    let y : Declaration := ⟨.known .author, .bool false, .selector other⟩
    let z : Declaration := ⟨.known .userAgent, .bool true, .nothing⟩
    x.compare y = .ok .eq ∧ y.compare x = .ok .eq ∧ Ties x y ∧ y.compare z = .ok .lt ∧
      x.compare z = .ok .lt := by
  intro one other x y z
  obtain ⟨_, answers, chain⟩ := comparePreorder x y z
  obtain ⟨back, ties⟩ := answers .eq rfl
  obtain ⟨q, behind, _, wins⟩ := chain .eq .lt rfl rfl rfl rfl
  exact ⟨rfl, back, ties.mp rfl, rfl, wins (.inr rfl) ▸ behind⟩

end SelectorRank.Declaration
