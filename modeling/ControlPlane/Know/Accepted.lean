import ControlPlane.Know.ReadBack
import ControlPlane.Know.Represented

/-!
# What the parsers promise

What holds of every knowledge base that `parse_all` returns (`accepted_of_parseAll`), and that the
graph relies on: the keys of its dicts are different ones that can be hashed, and a model is kept
under the field that it is named by.
-/

namespace ControlPlane.Know

open JsonText

variable {Obj : Type}

/-- A dict of models, by a field of theirs. -/
structure Keyed {A B : Type} (P : Python Obj) (as : PyVal Obj → Option B) (of : A → B)
    (items : List (PyVal Obj × A)) : Prop where
  distinct : Dict.Distinct P.same items
  hashable : ∀ i ∈ items, P.hashable i.1 = true
  key : ∀ i ∈ items, as i.1 = some (of i.2)

/-- What the parsers promise of a knowledge base. -/
structure Accepted (P : Python Obj) (kb : Knowledge Obj) : Prop where
  zones : Keyed P P.asStr Zone.name kb.zones
  assets : Keyed P P.asStr Asset.ip kb.assets
  leafs : Keyed P P.asStr Leaf.name kb.leafs
  sids : Keyed P P.asInt SidDetection.sid kb.sids
  policy : Dict.Distinct P.samePair kb.policyMatrix
  contracts : Dict.Distinct P.same kb.enforcementPlane.endpointContracts
  endpoints : ∀ i ∈ kb.enforcementPlane.endpointContracts, P.hashable i.1 = true
  cidrs : ∀ c ∈ kb.invariants.neverBlockCidrs, P.hashable c = true
  rationale : ∀ k, (Dict.lookup P.same k kb.invariants.neverBlockRationale).isSome = true ↔
    ∃ c ∈ kb.invariants.neverBlockCidrs, P.same c k = true

namespace Neo4j

variable {N : Neo4j Obj}

/-- A dict of models is by the field that their keys are taken from. -/
theorem keyed_of_parse {A B : Type} {as : PyVal Obj → Option B} {of : A → B} {key : String}
    {make : Args Obj → Option A} {blocks : List (PyVal Obj)} {d : List (PyVal Obj × A)}
    (hmake : ∀ args a, make args = some a → (args key).bind as = some (of a))
    (hsame : ∀ {v w s t}, N.same v w = true → as v = some s → as w = some t → s = t)
    (h : N.keyed key make blocks = some d) : Keyed N.toPython as of d := by
  obtain ⟨items, hitems, hd⟩ := Option.bind_eq_some_iff.mp h
  obtain rfl : Dict.ofList N.same items = d := Option.some.inj hd
  have hitem : ∀ i ∈ items, N.hashable i.1 = true ∧ as i.1 = some (of i.2) := by
    intro i hi
    obtain ⟨b, -, hb⟩ := exists_of_mem_mapM hitems hi
    obtain ⟨k, hk, hb⟩ := Option.bind_eq_some_iff.mp hb
    obtain ⟨args, hargs, hb⟩ := Option.bind_eq_some_iff.mp hb
    obtain ⟨a, ha, hb⟩ := Option.bind_eq_some_iff.mp hb
    split_ifs at hb with hhash
    obtain rfl := Option.some.inj hb
    -- The key is the named value that the field is read from.
    have hkey : args key = some k := by
      unfold field at hk
      unfold argsOf at hargs
      cases b with
      | dict entries =>
        dsimp only at hk hargs
        split_ifs at hargs
        obtain rfl := Option.some.inj hargs
        exact hk
      | _ => cases hk
    have hread := hmake args a ha
    rw [hkey] at hread
    exact ⟨hhash, hread⟩
  refine ⟨Dict.distinct_ofList N.same_equiv items, fun i hi => ?_, fun i hi => ?_⟩
  · obtain ⟨⟨j, hj, hji⟩, -⟩ := Dict.exists_of_mem_ofList N.same_equiv hi
    rw [← hji]
    exact (hitem j hj).1
  · -- The key is that of one item and the model that of another one.
    obtain ⟨⟨j, hj, hji⟩, l, hl, hil, hli⟩ := Dict.exists_of_mem_ofList N.same_equiv hi
    have hfirst := (hitem j hj).2
    have hlast := (hitem l hl).2
    rw [hji] at hfirst
    rw [hfirst, ← hli, hsame hil hfirst hlast]

theorem strArg_of_zone {args : Args Obj} {z : Zone} (h : N.zone args = some z) :
    N.strArg args "name" = some z.name := by
  obtain ⟨name, hname, h⟩ := Option.bind_eq_some_iff.mp h
  iterate 9 obtain ⟨_, -, h⟩ := Option.bind_eq_some_iff.mp h
  obtain rfl := Option.some.inj h
  exact hname

theorem strArg_of_asset {args : Args Obj} {services : List Service} {a : Asset}
    (h : N.asset args services = some a) : N.strArg args "ip" = some a.ip := by
  obtain ⟨ip, hip, h⟩ := Option.bind_eq_some_iff.mp h
  iterate 13 obtain ⟨_, -, h⟩ := Option.bind_eq_some_iff.mp h
  obtain rfl := Option.some.inj h
  exact hip

theorem strArg_of_leaf {args : Args Obj} {l : Leaf} (h : N.leaf args = some l) :
    N.strArg args "name" = some l.name := by
  obtain ⟨name, hname, h⟩ := Option.bind_eq_some_iff.mp h
  iterate 3 obtain ⟨_, -, h⟩ := Option.bind_eq_some_iff.mp h
  obtain rfl := Option.some.inj h
  exact hname

theorem intArg_of_sidDetection {args : Args Obj} {d : SidDetection}
    (h : N.sidDetection args = some d) : N.intArg args "sid" = some d.sid := by
  obtain ⟨sid, hsid, h⟩ := Option.bind_eq_some_iff.mp h
  iterate 12 obtain ⟨_, -, h⟩ := Option.bind_eq_some_iff.mp h
  obtain rfl := Option.some.inj h
  exact hsid

/-- Every knowledge base that is parsed is as the graph relies on it. -/
theorem accepted_of_parseAll {safeLoad : PyStr → Option (PyVal Obj)} {files : Files}
    {parsed : Parsed Obj} (h : N.parseAll safeLoad files = some parsed) :
    Accepted N.toPython parsed.knowledge := by
  obtain ⟨-, hparses⟩ := N.parses_of_parseAll h
  have hasset (args : Args Obj) (a : Asset) (ha : N.assetOf args = some a) :
      (args "ip").bind N.asStr = some a.ip := by
    obtain ⟨v, -, ha⟩ := Option.bind_eq_some_iff.mp ha
    obtain ⟨services, -, ha⟩ := Option.bind_eq_some_iff.mp ha
    exact strArg_of_asset ha
  obtain ⟨b, -, hpolicy⟩ := Option.bind_eq_some_iff.mp hparses.policyMatrix
  obtain ⟨v, -, hpolicy⟩ := Option.bind_eq_some_iff.mp hpolicy
  obtain ⟨rows, -, hpolicy⟩ := Option.bind_eq_some_iff.mp hpolicy
  obtain ⟨rules, -, hpolicy⟩ := Option.bind_eq_some_iff.mp hpolicy
  obtain ⟨v, -, hplane⟩ := Option.bind_eq_some_iff.mp hparses.enforcementPlane
  obtain ⟨rows, -, hplane⟩ := Option.bind_eq_some_iff.mp hplane
  obtain ⟨contracts, hcontracts, hplane⟩ := Option.bind_eq_some_iff.mp hplane
  iterate 4 obtain ⟨_, -, hplane⟩ := Option.bind_eq_some_iff.mp hplane
  obtain ⟨v, -, hinv⟩ := Option.bind_eq_some_iff.mp hparses.invariants
  obtain ⟨rows, -, hinv⟩ := Option.bind_eq_some_iff.mp hinv
  obtain ⟨entries, hentries, hinv⟩ := Option.bind_eq_some_iff.mp hinv
  iterate 2 obtain ⟨_, -, hinv⟩ := Option.bind_eq_some_iff.mp hinv
  have hmatrix : Dict.ofList N.samePair rules = parsed.policyMatrix := Option.some.inj hpolicy
  have hendpoints : Dict.ofList N.same contracts =
      parsed.enforcementPlane.endpointContracts := by
    rw [← Option.some.inj hplane]
  have hcidrs : entries.map Prod.fst = parsed.invariants.neverBlockCidrs := by
    rw [← Option.some.inj hinv]
  have hrationale : Dict.ofList N.same entries = parsed.invariants.neverBlockRationale := by
    rw [← Option.some.inj hinv]
  refine {
    zones := keyed_of_parse (fun _ _ => strArg_of_zone) N.asStr_same hparses.zones
    assets := keyed_of_parse hasset N.asStr_same hparses.assets
    leafs := keyed_of_parse (fun _ _ => strArg_of_leaf) N.asStr_same hparses.leafs
    sids := keyed_of_parse (fun _ _ => intArg_of_sidDetection) N.asInt_same hparses.sids
    policy := ?_, contracts := ?_, endpoints := ?_, cidrs := ?_, rationale := ?_ }
  · show Dict.Distinct N.samePair parsed.policyMatrix
    rw [← hmatrix]
    exact Dict.distinct_ofList N.samePair_equiv rules
  · show Dict.Distinct N.same parsed.enforcementPlane.endpointContracts
    rw [← hendpoints]
    exact Dict.distinct_ofList N.same_equiv contracts
  · show ∀ i ∈ parsed.enforcementPlane.endpointContracts, N.hashable i.1 = true
    intro i hi
    rw [← hendpoints] at hi
    obtain ⟨⟨j, hj, hji⟩, -⟩ := Dict.exists_of_mem_ofList N.same_equiv hi
    obtain ⟨row, -, hrow⟩ := exists_of_mem_mapM hcontracts hj
    obtain ⟨endpoint, -, hrow⟩ := Option.bind_eq_some_iff.mp hrow
    obtain ⟨description, -, hrow⟩ := Option.bind_eq_some_iff.mp hrow
    split_ifs at hrow with hhash
    obtain rfl := Option.some.inj hrow
    rw [← hji]
    exact hhash
  · show ∀ c ∈ parsed.invariants.neverBlockCidrs, N.hashable c = true
    intro c hc
    rw [← hcidrs] at hc
    obtain ⟨entry, hentry, rfl⟩ := List.mem_map.mp hc
    obtain ⟨row, -, hrow⟩ := exists_of_mem_mapM hentries hentry
    obtain ⟨cidr, -, hrow⟩ := Option.bind_eq_some_iff.mp hrow
    split_ifs at hrow with hhash
    obtain rfl := Option.some.inj hrow
    exact hhash
  · show ∀ k, (Dict.lookup N.same k parsed.invariants.neverBlockRationale).isSome = true ↔
      ∃ c ∈ parsed.invariants.neverBlockCidrs, N.same c k = true
    intro k
    rw [← hcidrs, ← hrationale]
    constructor
    · intro hsome
      obtain ⟨i, hi, hik⟩ := Dict.exists_key_iff.mpr hsome
      obtain ⟨⟨j, hj, hji⟩, -⟩ := Dict.exists_of_mem_ofList N.same_equiv hi
      exact ⟨j.1, List.mem_map_of_mem hj, hji ▸ hik⟩
    · rintro ⟨c, hc, hck⟩
      obtain ⟨i, hi, rfl⟩ := List.mem_map.mp hc
      exact Dict.lookup_ofList_isSome N.same_equiv hi hck

end Neo4j

end ControlPlane.Know
