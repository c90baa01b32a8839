import ControlPlane.Lib.PropertyGraph

/-!
# The edges of a property graph

What a run makes of the edges of one type, when the nodes at one of their ends are all its own.
Each of them is one that a statement has merged (`exists_of_mem_paths`), a statement leaves one
between all nodes that it matches (`exists_path`), and no two of them are one
(`pairwise_paths`).
-/

namespace ControlPlane.PropertyGraph

variable {V : Type}

/-! ## Nodes over a run -/

section

variable {equal : V → V → Bool}

theorem lookup_of_mem {keys : List (String × V)} (hnd : (keys.map Prod.fst).Nodup)
    {k : String × V} (hk : k ∈ keys) : keys.lookup k.1 = some k.2 := by
  induction keys with
  | nil => exact absurd hk List.not_mem_nil
  | cons x rest ih =>
    rw [List.map_cons, List.nodup_cons] at hnd
    rcases List.mem_cons.mp hk with rfl | hk
    · exact List.lookup_cons_self
    · have hne : k.1 ≠ x.1 := fun h => hnd.1 (h ▸ List.mem_map_of_mem hk)
      rw [List.lookup_cons, beq_eq_false_iff_ne.mpr hne]
      exact ih hnd.2 hk

/-- A node is another one later on, which has the same value of a property. -/
structure Node.Stays (key : String) (n n' : Node V) : Prop where
  id : n'.id = n.id
  labels : n'.labels = n.labels
  prop : n'.props key = n.props key

theorem Node.Stays.refl (key : String) (n : Node V) : n.Stays key n := ⟨rfl, rfl, rfl⟩

theorem Node.Stays.trans {key : String} {n n' n'' : Node V} (h : n.Stays key n')
    (h' : n'.Stays key n'') : n.Stays key n'' :=
  ⟨h'.id.trans h.id, h'.labels.trans h.labels, h'.prop.trans h.prop⟩

/-- No node is given a value of the property. -/
def Unset (key : String) (ss : List (Statement V)) : Prop :=
  ∀ m sets, .mergeNode m sets ∈ ss → key ∉ sets.map Prod.fst

theorem Pattern.stays_touch {key : String} {sets : Sets V} (h : key ∉ sets.map Prod.fst)
    (m : Pattern V) (n : Node V) : n.Stays key (m.touch equal sets n) := by
  refine ⟨m.touch_id equal sets n, m.touch_labels equal sets n, ?_⟩
  unfold touch
  split_ifs
  · exact Props.setAll_of_notMem h
  · rfl

theorem Pattern.fits_of_stays {m : Pattern V} {n n' : Node V} (h : n.Stays m.key n')
    (hn : m.fits equal n = true) : m.fits equal n' = true := by
  unfold fits Props.has at hn ⊢
  rw [h.labels, h.prop]
  exact hn

theorem Pattern.prop_of_mem_created {m : Pattern V} {sets : Sets V} {g : Graph V} {n : Node V}
    (h : n ∈ m.created equal sets g) (hkey : m.key ∉ sets.map Prod.fst) :
    n.props m.key = some m.value := by
  unfold created at h
  split_ifs at h
  · exact absurd h List.not_mem_nil
  · rw [List.mem_singleton.mp h]
    exact Props.fresh_key hkey

theorem next_le_run (ss : List (Statement V)) (g : Graph V) : g.next ≤ (run equal ss g).next := by
  unfold run
  induction ss generalizing g with
  | nil => exact Nat.le_refl _
  | cons st rest ih =>
    refine Nat.le_trans ?_ (ih (st.exec equal g))
    cases st with
    | mergeEdge s t type keys sets => exact Nat.le_refl _
    | mergeNode m sets => exact Nat.le_succ _

/-- A node stays. -/
theorem exists_stays_run {key : String} {ss : List (Statement V)} (hkey : Unset key ss)
    {g : Graph V} {n : Node V} (hn : n ∈ g.nodes) :
    ∃ n' ∈ (run equal ss g).nodes, n.Stays key n' := by
  unfold run
  induction ss generalizing g n with
  | nil => exact ⟨n, hn, .refl key n⟩
  | cons st rest ih =>
    have hrest : Unset key rest := fun m sets h => hkey m sets (List.mem_cons_of_mem _ h)
    obtain ⟨n₁, hn₁, h₁⟩ : ∃ n₁ ∈ (st.exec equal g).nodes, n.Stays key n₁ := by
      cases st with
      | mergeEdge s t type keys sets => exact ⟨n, hn, .refl key n⟩
      | mergeNode m sets =>
        refine ⟨m.touch equal sets n, List.mem_append_left _ (List.mem_map_of_mem hn), ?_⟩
        exact m.stays_touch (hkey m sets List.mem_cons_self) n
    obtain ⟨n', hn', h'⟩ := ih hrest hn₁
    exact ⟨n', hn', h₁.trans h'⟩

/-- A node after a run was there before, or a merge has created it. -/
theorem stays_or_created {key : String} {ss : List (Statement V)} (hkey : Unset key ss)
    {g : Graph V} {n' : Node V} (hn' : n' ∈ (run equal ss g).nodes) :
    (∃ n ∈ g.nodes, n.Stays key n') ∨
      ∃ m sets, .mergeNode m sets ∈ ss ∧ g.next ≤ n'.id ∧ n'.labels = [m.label] ∧
        (m.key = key → n'.props key = some m.value) := by
  induction ss using List.reverseRecOn generalizing n' with
  | nil => exact .inl ⟨n', hn', .refl key n'⟩
  | append_singleton ss st ih =>
    have hss : Unset key ss := fun m sets h => hkey m sets (List.mem_append_left _ h)
    have hbefore (n₁ : Node V) (hn₁ : n₁ ∈ (run equal ss g).nodes) (h₁ : n₁.Stays key n') :
        (∃ n ∈ g.nodes, n.Stays key n') ∨
          ∃ m sets, .mergeNode m sets ∈ ss ++ [st] ∧ g.next ≤ n'.id ∧ n'.labels = [m.label] ∧
            (m.key = key → n'.props key = some m.value) := by
      rcases ih hss hn₁ with ⟨n, hn, h⟩ | ⟨m, sets, hm, hid, hlabels, hvalue⟩
      · exact .inl ⟨n, hn, h.trans h₁⟩
      · refine .inr ⟨m, sets, List.mem_append_left _ hm, ?_, h₁.labels.trans hlabels,
          fun h => h₁.prop.trans (hvalue h)⟩
        rw [h₁.id]
        exact hid
    rw [run_append] at hn'
    cases st with
    | mergeEdge s t type keys sets => exact hbefore n' hn' (.refl key n')
    | mergeNode m sets =>
      have hsets : key ∉ sets.map Prod.fst := hkey m sets (by simp)
      rcases List.mem_append.mp hn' with hn' | hn'
      · obtain ⟨n₁, hn₁, rfl⟩ := List.mem_map.mp hn'
        exact hbefore n₁ hn₁ (m.stays_touch hsets n₁)
      · -- The node is the one that the last statement creates.
        refine .inr ⟨m, sets, by simp, ?_, Pattern.labels_of_mem_created hn', fun hm => ?_⟩
        · rw [Pattern.id_of_mem_created equal hn']
          exact next_le_run ss g
        · subst hm
          exact Pattern.prop_of_mem_created hn' hsets

/-! ## Paths -/

/-- The node with an identifier. -/
def Graph.node? (g : Graph V) (id : ℕ) : Option (Node V) := g.nodes.find? fun n => n.id == id

/-- The properties along an edge of a type between nodes of two labels. -/
def Graph.path (g : Graph V) (source type target : String) (e : Edge V) :
    Option (Props V × Props V × Props V) := do
  let a ← g.node? e.source
  let b ← g.node? e.target
  if e.type = type ∧ source ∈ a.labels ∧ target ∈ b.labels then some (a.props, e.props, b.props)
  else none

/-- `MATCH (a:source)-[r:type]->(b:target)`: the properties of `a`, of `r` and of `b`. -/
def Graph.paths (g : Graph V) (source type target : String) :
    List (Props V × Props V × Props V) := g.edges.filterMap (g.path source type target)

theorem Graph.node?_eq_some {g : Graph V} {id : ℕ} {n : Node V} :
    g.node? id = some n ↔ n ∈ g.nodes ∧ n.id = id := by
  unfold node?
  constructor
  · intro h
    exact ⟨List.mem_of_find?_eq_some h, by simpa using List.find?_some h⟩
  · rintro ⟨hn, rfl⟩
    cases hf : g.nodes.find? fun m => m.id == n.id with
    | none =>
      have hno := List.find?_eq_none.mp hf n hn
      simp at hno
    | some m =>
      have hid : m.id = n.id := by simpa using List.find?_some hf
      rw [List.inj_on_of_nodup_map g.ids (List.mem_of_find?_eq_some hf) hn hid]

theorem Graph.path_eq_some {g : Graph V} {source type target : String} {e : Edge V}
    {p : Props V × Props V × Props V} :
    g.path source type target e = some p ↔ e.type = type ∧
      ∃ a ∈ g.nodes, ∃ b ∈ g.nodes, a.id = e.source ∧ b.id = e.target ∧ source ∈ a.labels ∧
        target ∈ b.labels ∧ p = (a.props, e.props, b.props) := by
  simp only [path, Option.bind_eq_bind, Option.bind_eq_some_iff, node?_eq_some]
  constructor
  · rintro ⟨a, ⟨ha, hida⟩, b, ⟨hb, hidb⟩, h⟩
    split_ifs at h with hcond
    exact ⟨hcond.1, a, ha, b, hb, hida, hidb, hcond.2.1, hcond.2.2, (Option.some.inj h).symm⟩
  · rintro ⟨htype, a, ha, b, hb, hida, hidb, hsource, htarget, rfl⟩
    exact ⟨a, ⟨ha, hida⟩, b, ⟨hb, hidb⟩, if_pos ⟨htype, hsource, htarget⟩⟩

/-! ## Linking two nodes -/

section

variable {type : String} {keys : List (String × V)} {sets : Sets V} {pair : ℕ × ℕ}
  {edges : List (Edge V)}

theorem Edge.fits_iff {s t : ℕ} {e : Edge V} : e.fits equal type keys s t = true ↔
    e.type = type ∧ e.source = s ∧ e.target = t ∧ ∀ k ∈ keys, e.props.has equal k.1 k.2 = true := by
  simp only [fits, Bool.and_eq_true, decide_eq_true_eq, List.all_eq_true, and_assoc]

variable (equal type keys sets pair) in
/-- An edge stays, with the properties that the edges of its type are not given. -/
theorem exists_of_mem_link {e : Edge V} (he : e ∈ edges) :
    ∃ e' ∈ link equal type keys sets edges pair, e'.type = e.type ∧ e'.source = e.source ∧
      e'.target = e.target ∧
      ∀ name, (e.type = type → name ∉ sets.map Prod.fst) → e'.props name = e.props name := by
  unfold link
  split_ifs
  · refine ⟨_, List.mem_map_of_mem he, ?_⟩
    split_ifs with hfits
    · have htype := (Edge.fits_iff.mp hfits).1
      exact ⟨rfl, rfl, rfl, fun name hname => Props.setAll_of_notMem (hname htype)⟩
    · exact ⟨rfl, rfl, rfl, fun _ _ => rfl⟩
  · exact ⟨e, List.mem_append_left _ he, rfl, rfl, rfl, fun _ _ => rfl⟩

/-- The two nodes are linked. -/
theorem exists_link (hnd : (keys.map Prod.fst).Nodup)
    (hapart : ∀ k ∈ keys, k.1 ∉ sets.map Prod.fst) (hrefl : ∀ k ∈ keys, equal k.2 k.2 = true) :
    ∃ e ∈ link equal type keys sets edges pair, e.fits equal type keys pair.1 pair.2 = true := by
  unfold link
  split_ifs with hany
  · obtain ⟨e, he, hfits⟩ := List.any_eq_true.mp hany
    refine ⟨_, List.mem_map_of_mem he, ?_⟩
    rw [if_pos hfits]
    obtain ⟨htype, hsource, htarget, hkeys⟩ := Edge.fits_iff.mp hfits
    refine Edge.fits_iff.mpr ⟨htype, hsource, htarget, fun k hk => ?_⟩
    exact (Props.has_setAll equal (hapart k hk) k.2).trans (hkeys k hk)
  · refine ⟨_, List.mem_append_right _ (List.mem_singleton_self _), ?_⟩
    refine Edge.fits_iff.mpr ⟨rfl, rfl, rfl, fun k hk => ?_⟩
    have hlookup : Props.fresh keys sets k.1 = some k.2 := by
      unfold Props.fresh
      rw [Props.setAll_of_notMem (hapart k hk)]
      exact lookup_of_mem hnd hk
    show (Props.fresh keys sets k.1).any (fun v => equal v k.2) = true
    rw [hlookup]
    exact hrefl k hk

/-- All pairs of nodes are linked. -/
theorem exists_linked {pairs : List (ℕ × ℕ)} (hpair : pair ∈ pairs)
    (hnd : (keys.map Prod.fst).Nodup) (hapart : ∀ k ∈ keys, k.1 ∉ sets.map Prod.fst)
    (hrefl : ∀ k ∈ keys, equal k.2 k.2 = true) :
    ∃ e ∈ pairs.foldl (link equal type keys sets) edges,
      e.fits equal type keys pair.1 pair.2 = true := by
  induction pairs using List.reverseRecOn with
  | nil => exact absurd hpair List.not_mem_nil
  | append_singleton pairs last ih =>
    rw [List.foldl_append, List.foldl_cons, List.foldl_nil]
    rcases List.mem_append.mp hpair with hpair | hpair
    · obtain ⟨e, he, hfits⟩ := ih hpair
      obtain ⟨e', he', htype, hsource, htarget, hprops⟩ :=
        exists_of_mem_link equal type keys sets last he
      obtain ⟨htype', hsource', htarget', hvalues⟩ := Edge.fits_iff.mp hfits
      refine ⟨e', he', Edge.fits_iff.mpr ⟨htype.trans htype', hsource.trans hsource',
        htarget.trans htarget', fun k hk => ?_⟩⟩
      rw [Props.has, hprops k.1 fun _ => hapart k hk]
      exact hvalues k hk
    · rw [List.mem_singleton.mp hpair]
      exact exists_link hnd hapart hrefl

/-- An edge was there before, unchanged or with the properties that it is given, or it is new. -/
theorem of_mem_link {e : Edge V} (h : e ∈ link equal type keys sets edges pair) :
    e ∈ edges ∨
      (∃ e' ∈ edges, e'.fits equal type keys pair.1 pair.2 = true ∧
        e = { e' with props := e'.props.setAll sets }) ∨
      e = ⟨type, pair.1, pair.2, Props.fresh keys sets⟩ := by
  unfold link at h
  split_ifs at h
  · obtain ⟨e', he', rfl⟩ := List.mem_map.mp h
    split_ifs with hfits
    · exact .inr (.inl ⟨e', he', hfits, rfl⟩)
    · exact .inl he'
  · rcases List.mem_append.mp h with h | h
    · exact .inl h
    · exact .inr (.inr (List.mem_singleton.mp h))

end

/-! ## The edges of a type over a run -/

/-- What the statements that merge the edges of a type have in common. -/
structure EdgeKind where
  type : String
  source : String
  sourceKey : String
  target : String
  targetKey : String
  /-- The properties by which the edges are merged. -/
  names : List String
  /-- The properties that are set. -/
  sets : List String
  nodup : names.Nodup
  apart : ∀ name ∈ names, name ∉ sets

/-- The statements merge the edges of a type in one way, and the nodes at their ends. -/
structure Merges (equal : V → V → Bool) (k : EdgeKind) (ss : List (Statement V)) : Prop where
  shape : ∀ s t keys sets, .mergeEdge s t k.type keys sets ∈ ss →
    (s.label = k.source ∧ s.key = k.sourceKey) ∧ (t.label = k.target ∧ t.key = k.targetKey) ∧
      keys.map Prod.fst = k.names ∧ sets.map Prod.fst = k.sets
  equal_iff : ∀ s t keys sets, .mergeEdge s t k.type keys sets ∈ ss →
    ∀ s' t' keys' sets', .mergeEdge s' t' k.type keys' sets' ∈ ss →
      ∀ x ∈ keys, ∀ y ∈ keys', equal x.2 y.2 = true ↔ x.2 = y.2
  unsetSource : Unset k.sourceKey ss
  unsetTarget : Unset k.targetKey ss

theorem Merges.of_append {k : EdgeKind} {ss tt : List (Statement V)}
    (h : Merges equal k (ss ++ tt)) : Merges equal k ss where
  shape s t keys sets hst := h.shape s t keys sets (List.mem_append_left _ hst)
  equal_iff s t keys sets hst s' t' keys' sets' hst' :=
    h.equal_iff s t keys sets (List.mem_append_left _ hst) s' t' keys' sets'
      (List.mem_append_left _ hst')
  unsetSource m sets hm := h.unsetSource m sets (List.mem_append_left _ hm)
  unsetTarget m sets hm := h.unsetTarget m sets (List.mem_append_left _ hm)

/-- The edges of the type that start at late nodes: each is one that a statement has merged, and no
two are one. -/
structure Traced (equal : V → V → Bool) (k : EdgeKind) (ss : List (Statement V)) (low : ℕ)
    (nodes : List (Node V)) (edges : List (Edge V)) : Prop where
  merged : ∀ e ∈ edges, e.type = k.type → low ≤ e.source →
    ∃ s t keys sets, .mergeEdge s t k.type keys sets ∈ ss ∧ e.props = Props.fresh keys sets ∧
      (∃ a ∈ nodes, a.id = e.source ∧ s.fits equal a = true) ∧
      ∃ b ∈ nodes, b.id = e.target ∧ t.fits equal b = true
  unlike : edges.Pairwise fun e e' => e.type = k.type → e'.type = k.type → low ≤ e.source →
    e.source = e'.source → e.target = e'.target → ¬ ∀ name ∈ k.names, e.props name = e'.props name

section

variable {k : EdgeKind} {ss : List (Statement V)} {low : ℕ} {nodes : List (Node V)}
  {edges : List (Edge V)} {pair : ℕ × ℕ} {keys : List (String × V)} {sets : Sets V}

/-- Edges of another type do not matter. -/
theorem Traced.link_of_ne {type : String} (htype : type ≠ k.type)
    (h : Traced equal k ss low nodes edges) :
    Traced equal k ss low nodes (link equal type keys sets edges pair) where
  merged e he hk hlow := by
    rcases of_mem_link he with he | ⟨e', -, hfits, rfl⟩ | rfl
    · exact h.merged e he hk hlow
    · have hfits := (Edge.fits_iff.mp hfits).1
      exact absurd (hfits.symm.trans hk) htype
    · exact absurd hk htype
  unlike := by
    unfold link
    split_ifs
    · refine List.pairwise_map.mpr (h.unlike.imp fun {e e'} hee => ?_)
      -- What is changed has the other type.
      split_ifs with hfits _ hfits'
      · exact fun hk => absurd ((Edge.fits_iff.mp hfits).1.symm.trans hk) htype
      · exact fun hk => absurd ((Edge.fits_iff.mp hfits).1.symm.trans hk) htype
      · exact fun _ hk => absurd ((Edge.fits_iff.mp hfits').1.symm.trans hk) htype
      · exact hee
    · refine List.pairwise_append.mpr ⟨h.unlike, List.pairwise_singleton _ _, ?_⟩
      intro e _ e' he' _ hk
      rw [List.mem_singleton.mp he'] at hk
      exact absurd hk htype

theorem fresh_of_mem {name : String} {v : V} (hnd : (keys.map Prod.fst).Nodup)
    (hk : (name, v) ∈ keys) (hname : name ∉ sets.map Prod.fst) :
    Props.fresh keys sets name = some v := by
  unfold Props.fresh
  rw [Props.setAll_of_notMem hname]
  exact lookup_of_mem hnd hk

/-- Edges that are merged by equal values are given all that the last statement sets. -/
theorem setAll_fresh {keys' : List (String × V)} {sets' : Sets V}
    (hkeys : keys.map Prod.fst = keys'.map Prod.fst)
    (hsets : sets.map Prod.fst = sets'.map Prod.fst) (hnd : (keys'.map Prod.fst).Nodup)
    (hequal : ∀ x ∈ keys', ∀ v, (x.1, v) ∈ keys → v = x.2) :
    (Props.fresh keys sets).setAll sets' = Props.fresh keys' sets' := by
  refine Props.setAll_congr fun name hname => ?_
  unfold Props.fresh
  rw [Props.setAll_of_notMem (by rwa [hsets])]
  by_cases hmem : name ∈ keys'.map Prod.fst
  · obtain ⟨x, hx, rfl⟩ := List.mem_map.mp hmem
    rw [← hkeys] at hmem
    obtain ⟨y, hy, hyx⟩ := List.mem_map.mp hmem
    have hv : y.2 = x.2 := hequal x hx y.2 (by rw [← hyx]; exact hy)
    rw [lookup_of_mem hnd hx, ← hyx, lookup_of_mem (by rwa [hkeys]) hy, hv]
  · have hnone (l : List (String × V)) (hl : name ∉ l.map Prod.fst) : l.lookup name = none := by
      refine List.lookup_eq_none_iff.mpr fun x hx => ?_
      rw [bne_iff_ne]
      exact fun heq => hl (heq ▸ List.mem_map_of_mem hx)
    rw [hnone keys (by rwa [hkeys]), hnone keys' hmem]

/-- A statement of the type links two nodes that it matches. -/
theorem Traced.link {s t : Pattern V} (hk : Merges equal k ss)
    (hst : .mergeEdge s t k.type keys sets ∈ ss)
    (hs : ∃ a ∈ nodes, a.id = pair.1 ∧ s.fits equal a = true)
    (ht : ∃ b ∈ nodes, b.id = pair.2 ∧ t.fits equal b = true)
    (h : Traced equal k ss low nodes edges) :
    Traced equal k ss low nodes (link equal k.type keys sets edges pair) := by
  obtain ⟨-, -, hkeys, hsets⟩ := hk.shape s t keys sets hst
  have hnd : (keys.map Prod.fst).Nodup := hkeys ▸ k.nodup
  have hunset {name : String} (hname : name ∈ k.names) : name ∉ sets.map Prod.fst :=
    hsets ▸ k.apart name hname
  refine ⟨fun e he htype hlow => ?_, ?_⟩
  · rcases of_mem_link he with he | ⟨e', he', hfits, rfl⟩ | rfl
    · exact h.merged e he htype hlow
    · obtain ⟨-, hsource, htarget, hvalues⟩ := Edge.fits_iff.mp hfits
      obtain ⟨s', t', keys', sets', hst', hprops, ha, hb⟩ := h.merged e' he' htype hlow
      obtain ⟨-, -, hkeys', hsets'⟩ := hk.shape s' t' keys' sets' hst'
      refine ⟨s, t, keys, sets, hst, ?_, ?_, ?_⟩
      · show e'.props.setAll sets = Props.fresh keys sets
        rw [hprops]
        refine setAll_fresh (hkeys'.trans hkeys.symm) (hsets'.trans hsets.symm) hnd
          fun x hx v hv => ?_
        have hname : x.1 ∉ sets'.map Prod.fst :=
          hsets' ▸ k.apart x.1 (hkeys ▸ List.mem_map_of_mem hx)
        have hvalue := hvalues x hx
        rw [hprops, Props.has, fresh_of_mem (hkeys' ▸ k.nodup) hv hname] at hvalue
        exact (hk.equal_iff s' t' keys' sets' hst' s t keys sets hst _ hv x hx).mp hvalue
      · obtain ⟨a, ha, hid, hfit⟩ := hs
        exact ⟨a, ha, hid.trans hsource.symm, hfit⟩
      · obtain ⟨b, hb, hid, hfit⟩ := ht
        exact ⟨b, hb, hid.trans htarget.symm, hfit⟩
    · exact ⟨s, t, keys, sets, hst, rfl, hs, ht⟩
  · unfold PropertyGraph.link
    split_ifs with hany
    · have hprop (e : Edge V) {name : String} (hname : name ∈ k.names) :
          (if e.fits equal k.type keys pair.1 pair.2 then
            { e with props := e.props.setAll sets } else e).props name = e.props name := by
        split_ifs
        · exact Props.setAll_of_notMem (hunset hname)
        · rfl
      refine List.pairwise_map.mpr (h.unlike.imp fun {e e'} hee => ?_)
      intro htype htype' hlow hsource htarget hall
      have hfields (e : Edge V) : (if e.fits equal k.type keys pair.1 pair.2 then
          { e with props := e.props.setAll sets } else e).type = e.type ∧
          (if e.fits equal k.type keys pair.1 pair.2 then
            { e with props := e.props.setAll sets } else e).source = e.source ∧
          (if e.fits equal k.type keys pair.1 pair.2 then
            { e with props := e.props.setAll sets } else e).target = e.target := by
        split_ifs
        · exact ⟨rfl, rfl, rfl⟩
        · exact ⟨rfl, rfl, rfl⟩
      obtain ⟨ht₁, hs₁, hd₁⟩ := hfields e
      obtain ⟨ht₂, hs₂, hd₂⟩ := hfields e'
      rw [ht₁] at htype
      rw [ht₂] at htype'
      rw [hs₁] at hlow
      rw [hs₁, hs₂] at hsource
      rw [hd₁, hd₂] at htarget
      refine hee htype htype' hlow hsource htarget fun name hname => ?_
      rw [← hprop e hname, ← hprop e' hname]
      exact hall name hname
    · refine List.pairwise_append.mpr ⟨h.unlike, List.pairwise_singleton _ _, ?_⟩
      intro e he e' he' htype _ _ hsource htarget hall
      rw [List.mem_singleton.mp he'] at hsource htarget hall
      -- The old edge would have matched.
      apply hany
      refine List.any_eq_true.mpr ⟨e, he, Edge.fits_iff.mpr ⟨htype, hsource, htarget, ?_⟩⟩
      intro x hx
      have hname : x.1 ∈ k.names := hkeys ▸ List.mem_map_of_mem hx
      have hvalue : e.props x.1 = some x.2 :=
        (hall x.1 hname).trans (fresh_of_mem hnd hx (hunset hname))
      rw [Props.has, hvalue]
      exact (hk.equal_iff s t keys sets hst s t keys sets hst x hx x hx).mpr rfl

theorem Traced.mono {st : Statement V} (h : Traced equal k ss low nodes edges) :
    Traced equal k (ss ++ [st]) low nodes edges where
  merged e he htype hlow := by
    obtain ⟨s, t, keys, sets, hst, hrest⟩ := h.merged e he htype hlow
    exact ⟨s, t, keys, sets, List.mem_append_left _ hst, hrest⟩
  unlike := h.unlike

/-- Nodes that stay do not matter. -/
theorem Traced.stay {nodes' : List (Node V)} (hk : Merges equal k ss)
    (hstay : ∀ key, key = k.sourceKey ∨ key = k.targetKey →
      ∀ n ∈ nodes, ∃ n' ∈ nodes', n.Stays key n')
    (h : Traced equal k ss low nodes edges) : Traced equal k ss low nodes' edges where
  merged e he htype hlow := by
    obtain ⟨s, t, keys, sets, hst, hprops, ⟨a, ha, hida, hfita⟩, b, hb, hidb, hfitb⟩ :=
      h.merged e he htype hlow
    obtain ⟨⟨-, hskey⟩, ⟨-, htkey⟩, -, -⟩ := hk.shape s t keys sets hst
    obtain ⟨a', ha', hsa⟩ := hstay s.key (.inl hskey) a ha
    obtain ⟨b', hb', hsb⟩ := hstay t.key (.inr htkey) b hb
    exact ⟨s, t, keys, sets, hst, hprops, ⟨a', ha', hsa.id.trans hida, Pattern.fits_of_stays hsa hfita⟩,
      b', hb', hsb.id.trans hidb, Pattern.fits_of_stays hsb hfitb⟩
  unlike := h.unlike

/-- The edges of a type that a run makes. -/
theorem traced_run {g : Graph V} (hk : Merges equal k ss) :
    Traced equal k ss g.next (run equal ss g).nodes (run equal ss g).edges := by
  induction ss using List.reverseRecOn with
  | nil =>
    -- What was there starts at the nodes that were there.
    have hearly : ∀ e ∈ g.edges, e.source < g.next := by
      intro e he
      obtain ⟨n, hn, hid⟩ := List.mem_map.mp (g.ends e he).1
      rw [← hid]
      exact g.fresh n hn
    refine ⟨fun e he _ hlow => absurd (hearly e he) (Nat.not_lt.mpr hlow), ?_⟩
    refine List.Pairwise.imp_of_mem (fun {e e'} he _ _ => ?_)
      (List.pairwise_of_forall (R := fun _ _ => True) fun _ _ => trivial)
    exact fun _ _ hlow => absurd (hearly e he) (Nat.not_lt.mpr hlow)
  | append_singleton ss st ih =>
    have ih : Traced equal k (ss ++ [st]) g.next (run equal ss g).nodes (run equal ss g).edges :=
      (ih hk.of_append).mono
    rw [run_append]
    cases st with
    | mergeNode m sets =>
      refine ih.stay hk fun key hkey n hn => ?_
      have hunset : Unset key [.mergeNode m sets] := by
        intro m' sets' h
        rcases hkey with rfl | rfl
        · exact hk.unsetSource m' sets' (List.mem_append_right _ h)
        · exact hk.unsetTarget m' sets' (List.mem_append_right _ h)
      exact exists_stays_run hunset hn
    | mergeEdge s t type keys sets =>
      show Traced equal k _ g.next (run equal ss g).nodes
        ((run equal ss g).linked equal s t type keys sets)
      have hpairs : ∀ pair ∈ ((run equal ss g).matching equal s).flatMap
          fun a => ((run equal ss g).matching equal t).map fun b => (a, b),
          (∃ a ∈ (run equal ss g).nodes, a.id = pair.1 ∧ s.fits equal a = true) ∧
            ∃ b ∈ (run equal ss g).nodes, b.id = pair.2 ∧ t.fits equal b = true := by
        intro pair hpair
        obtain ⟨hs, ht⟩ := (Graph.mem_pairs equal).mp hpair
        obtain ⟨a, ha, hfita, hida⟩ := (Graph.mem_matching equal).mp hs
        obtain ⟨b, hb, hfitb, hidb⟩ := (Graph.mem_matching equal).mp ht
        exact ⟨⟨a, ha, hida, hfita⟩, b, hb, hidb, hfitb⟩
      unfold Graph.linked
      generalize ((run equal ss g).matching equal s).flatMap
        (fun a => ((run equal ss g).matching equal t).map fun b => (a, b)) = pairs at hpairs ⊢
      generalize (run equal ss g).edges = edges at ih ⊢
      induction pairs generalizing edges with
      | nil => exact ih
      | cons pair rest ihpairs =>
        obtain ⟨hpair, hrest⟩ := List.forall_mem_cons.mp hpairs
        refine ihpairs hrest _ ?_
        by_cases htype : type = k.type
        · subst htype
          exact ih.link hk (by simp) hpair.1 hpair.2
        · exact ih.link_of_ne htype

end

/-! ## What is read of the edges -/

section

variable {k : EdgeKind} {ss : List (Statement V)} {g : Graph V}

/-- The nodes of the source's label are those that the run has created. -/
theorem next_le_of_source (hg : ∀ n ∈ g.nodes, k.source ∉ n.labels) (hk : Merges equal k ss)
    {n : Node V} (hn : n ∈ (run equal ss g).nodes) (hlabel : k.source ∈ n.labels) :
    g.next ≤ n.id := by
  rcases stays_or_created hk.unsetSource hn with ⟨n₀, hn₀, hstays⟩ | ⟨m, sets, -, hid, -⟩
  · rw [hstays.labels] at hlabel
    exact absurd hlabel (hg n₀ hn₀)
  · exact hid

/-- An edge that is read is one that a statement has merged. -/
theorem exists_of_mem_paths (hg : ∀ n ∈ g.nodes, k.source ∉ n.labels) (hk : Merges equal k ss)
    {p : Props V × Props V × Props V}
    (hp : p ∈ (run equal ss g).paths k.source k.type k.target) :
    p.1 ∈ (run equal ss g).rows k.source ∧ p.2.2 ∈ (run equal ss g).rows k.target ∧
      ∃ s t keys sets, .mergeEdge s t k.type keys sets ∈ ss ∧ p.2.1 = Props.fresh keys sets ∧
        p.1.has equal s.key s.value = true ∧ p.2.2.has equal t.key t.value = true := by
  obtain ⟨e, he, hpath⟩ := List.mem_filterMap.mp hp
  obtain ⟨htype, a, ha, b, hb, hida, hidb, hsource, htarget, rfl⟩ := Graph.path_eq_some.mp hpath
  have hlow : g.next ≤ e.source := hida ▸ next_le_of_source hg hk ha hsource
  obtain ⟨s, t, keys, sets, hst, hprops, ⟨a', ha', hida', hfita⟩, b', hb', hidb', hfitb⟩ :=
    (traced_run hk).merged e he htype hlow
  obtain rfl : a' = a :=
    List.inj_on_of_nodup_map (run equal ss g).ids ha' ha (hida'.trans hida.symm)
  obtain rfl : b' = b :=
    List.inj_on_of_nodup_map (run equal ss g).ids hb' hb (hidb'.trans hidb.symm)
  refine ⟨?_, ?_, s, t, keys, sets, hst, hprops, ?_, ?_⟩
  · exact List.mem_map_of_mem (List.mem_filter.mpr ⟨ha, decide_eq_true hsource⟩)
  · exact List.mem_map_of_mem (List.mem_filter.mpr ⟨hb, decide_eq_true htarget⟩)
  · exact (Bool.and_eq_true_iff.mp hfita).2
  · exact (Bool.and_eq_true_iff.mp hfitb).2

/-- No two edges that are read are one, when the nodes at their ends are told apart. -/
theorem pairwise_paths (hg : ∀ n ∈ g.nodes, k.source ∉ n.labels) (hk : Merges equal k ss)
    (hs : (((run equal ss g).rows k.source).map fun p => p k.sourceKey).Nodup)
    (ht : (((run equal ss g).rows k.target).map fun p => p k.targetKey).Nodup) :
    ((run equal ss g).paths k.source k.type k.target).Pairwise fun p q =>
      p.1 k.sourceKey = q.1 k.sourceKey → p.2.2 k.targetKey = q.2.2 k.targetKey →
        ¬ ∀ name ∈ k.names, p.2.1 name = q.2.1 name := by
  have hone {label key : String}
      (hnd : (((run equal ss g).rows label).map fun p => p key).Nodup) {a b : Node V}
      (ha : a ∈ (run equal ss g).nodes) (hb : b ∈ (run equal ss g).nodes)
      (hla : label ∈ a.labels) (hlb : label ∈ b.labels) (heq : a.props key = b.props key) :
      a.id = b.id := by
    rw [Graph.rows, List.map_map] at hnd
    rw [List.inj_on_of_nodup_map hnd (List.mem_filter.mpr ⟨ha, decide_eq_true hla⟩)
      (List.mem_filter.mpr ⟨hb, decide_eq_true hlb⟩) heq]
  refine List.pairwise_filterMap.mpr ((traced_run hk).unlike.imp fun {e e'} hee => ?_)
  intro p hp q hq hsame hsame'
  obtain ⟨htype, a, ha, b, hb, hida, hidb, hsource, htarget, rfl⟩ := Graph.path_eq_some.mp hp
  obtain ⟨htype', a', ha', b', hb', hida', hidb', hsource', htarget', rfl⟩ :=
    Graph.path_eq_some.mp hq
  refine hee htype htype' (hida ▸ next_le_of_source hg hk ha hsource) ?_ ?_
  · rw [← hida, ← hida']
    exact hone hs ha ha' hsource hsource' hsame
  · rw [← hidb, ← hidb']
    exact hone ht hb hb' htarget htarget' hsame'

/-- An edge of the type stays, with the properties that it is merged by. -/
theorem exists_edge_run {tt : List (Statement V)} (hk : Merges equal k (ss ++ tt)) {e : Edge V}
    (he : e ∈ g.edges) (htype : e.type = k.type) :
    ∃ e' ∈ (run equal tt g).edges, e'.type = k.type ∧ e'.source = e.source ∧
      e'.target = e.target ∧ ∀ name ∈ k.names, e'.props name = e.props name := by
  induction tt using List.reverseRecOn with
  | nil => exact ⟨e, he, htype, rfl, rfl, fun _ _ => rfl⟩
  | append_singleton tt st ih =>
    rw [← List.append_assoc] at hk
    obtain ⟨e₁, he₁, htype₁, hsource₁, htarget₁, hprops₁⟩ := ih hk.of_append
    rw [run_append]
    cases st with
    | mergeNode m sets => exact ⟨e₁, he₁, htype₁, hsource₁, htarget₁, hprops₁⟩
    | mergeEdge s t type keys sets =>
      have hkept : ∀ name ∈ k.names, k.type = type → name ∉ sets.map Prod.fst := by
        rintro name hname rfl
        rw [(hk.shape s t keys sets (by simp)).2.2.2]
        exact k.apart name hname
      have hlinks (pairs : List (ℕ × ℕ)) (edges : List (Edge V)) (e₁ : Edge V) (he₁ : e₁ ∈ edges)
          (htype₁ : e₁.type = k.type) :
          ∃ e' ∈ pairs.foldl (link equal type keys sets) edges, e'.type = k.type ∧
            e'.source = e₁.source ∧ e'.target = e₁.target ∧
            ∀ name ∈ k.names, e'.props name = e₁.props name := by
        induction pairs generalizing edges e₁ with
        | nil => exact ⟨e₁, he₁, htype₁, rfl, rfl, fun _ _ => rfl⟩
        | cons pair rest ihpairs =>
          obtain ⟨e₂, he₂, htype₂, hsource₂, htarget₂, hprops₂⟩ :=
            exists_of_mem_link equal type keys sets pair he₁
          obtain ⟨e', he', htype', hsource', htarget', hprops'⟩ :=
            ihpairs _ e₂ he₂ (htype₂.trans htype₁)
          refine ⟨e', he', htype', hsource'.trans hsource₂, htarget'.trans htarget₂,
            fun name hname => (hprops' name hname).trans (hprops₂ name fun h => ?_)⟩
          exact hkept name hname (htype₁.symm.trans h)
      obtain ⟨e', he', htype', hsource', htarget', hprops'⟩ := hlinks _ _ e₁ he₁ htype₁
      exact ⟨e', he', htype', hsource'.trans hsource₁, htarget'.trans htarget₁,
        fun name hname => (hprops' name hname).trans (hprops₁ name hname)⟩

/-- No node is created that a pattern matches. -/
def NotCreated (equal : V → V → Bool) (m : Pattern V) (ss : List (Statement V)) : Prop :=
  ∀ m' sets, .mergeNode m' sets ∈ ss → m'.label = m.label →
    m'.key = m.key ∧ equal m'.value m.value = false

/-- Nothing is created behind a merge that made the node that a pattern matches, when no two merges
make nodes that match one value. -/
theorem NotCreated.of_merged {m : Pattern V} {st : Statement V} {tt : List (Statement V)}
    (hkey : ∀ x ∈ merged m.label (ss ++ st :: tt), x.1.key = m.key)
    (hdiff : (merged m.label (ss ++ st :: tt)).Pairwise fun x y =>
      ∀ v, equal x.1.value v = true → equal y.1.value v = false)
    {x : Pattern V × Sets V} (hx : .mergeNode x.1 x.2 ∈ ss) (hlabel : x.1.label = m.label)
    (hfit : equal x.1.value m.value = true) : NotCreated equal m tt := by
  intro m' sets hm' hlabel'
  have hfirst : x ∈ merged m.label ss := List.mem_filterMap.mpr ⟨_, hx, if_pos hlabel⟩
  have hlater : (m', sets) ∈ merged m.label (st :: tt) :=
    List.mem_filterMap.mpr ⟨_, List.mem_cons_of_mem _ hm', if_pos hlabel'⟩
  rw [merged_append] at hkey hdiff
  refine ⟨hkey (m', sets) (List.mem_append_right _ hlater), ?_⟩
  exact (List.pairwise_append.mp hdiff).2.2 x hfirst (m', sets) hlater m.value hfit

/-- What a pattern matches after statements that create nothing for it, it matches before them. -/
theorem exists_before {m : Pattern V} {tt : List (Statement V)} (hunset : Unset m.key tt)
    (hno : NotCreated equal m tt) {n : Node V} (hn : n ∈ (run equal tt g).nodes)
    (hfit : m.fits equal n = true) : ∃ n₀ ∈ g.nodes, n₀.id = n.id ∧ m.fits equal n₀ = true := by
  rcases stays_or_created hunset hn with ⟨n₀, hn₀, hstays⟩ | ⟨m', sets, hm', -, hlabels, hvalue⟩
  · refine ⟨n₀, hn₀, hstays.id.symm, ?_⟩
    unfold Pattern.fits Props.has at hfit ⊢
    rw [← hstays.labels, ← hstays.prop]
    exact hfit
  · -- The node would be a new one of the value.
    obtain ⟨hlabel, hhas⟩ := Bool.and_eq_true_iff.mp hfit
    rw [hlabels, decide_eq_true_eq, List.mem_singleton] at hlabel
    obtain ⟨hkey, hne⟩ := hno m' sets hm' hlabel.symm
    rw [Props.has, hvalue hkey] at hhas
    exact absurd hhas (by rw [Option.any_some, hne]; exact Bool.false_ne_true)

/-- A statement leaves an edge between all nodes that it matches. -/
theorem exists_path {s t : Pattern V} {keys : List (String × V)} {sets : Sets V}
    {tt : List (Statement V)} (hk : Merges equal k (ss ++ .mergeEdge s t k.type keys sets :: tt))
    (hs : NotCreated equal s tt) (ht : NotCreated equal t tt) {p q : Props V}
    (hp : p ∈ (run equal (ss ++ .mergeEdge s t k.type keys sets :: tt) g).rows k.source)
    (hq : q ∈ (run equal (ss ++ .mergeEdge s t k.type keys sets :: tt) g).rows k.target)
    (hps : p.has equal s.key s.value = true) (hqt : q.has equal t.key t.value = true) :
    ∃ r, (p, r, q) ∈ (run equal (ss ++ .mergeEdge s t k.type keys sets :: tt) g).paths k.source
      k.type k.target ∧ ∀ x ∈ keys, r.has equal x.1 x.2 = true := by
  obtain ⟨⟨hslabel, hskey⟩, ⟨htlabel, htkey⟩, hkeys, hsets⟩ := hk.shape s t keys sets (by simp)
  have hnames : ∀ x ∈ keys, x.1 ∈ k.names := fun x hx => hkeys ▸ List.mem_map_of_mem hx
  have hmem {m : Pattern V} {label : String} (hlabel : m.label = label) {p : Props V}
      (hp : p ∈ (run equal (ss ++ .mergeEdge s t k.type keys sets :: tt) g).rows label)
      (hhas : p.has equal m.key m.value = true) :
      ∃ a ∈ (run equal (ss ++ .mergeEdge s t k.type keys sets :: tt) g).nodes, a.props = p ∧
        label ∈ a.labels ∧ m.fits equal a = true := by
    obtain ⟨a, ha, rfl⟩ := List.mem_map.mp hp
    obtain ⟨ha, hla⟩ := List.mem_filter.mp ha
    refine ⟨a, ha, rfl, of_decide_eq_true hla, ?_⟩
    rw [Pattern.fits, hlabel, hla, hhas]
    rfl
  obtain ⟨a, ha, rfl, hla, hfita⟩ := hmem hslabel hp hps
  obtain ⟨b, hb, rfl, hlb, hfitb⟩ := hmem htlabel hq hqt
  -- Both nodes were there when the edge was merged.
  have hrun : run equal (ss ++ .mergeEdge s t k.type keys sets :: tt) g =
      run equal tt ((run equal ss g).mergeEdge equal s t k.type keys sets) := by
    rw [run_append]
    rfl
  rw [hrun] at ha hb ⊢
  have hunset {key : String} (h : Unset key (ss ++ .mergeEdge s t k.type keys sets :: tt)) :
      Unset key tt := fun m sets' hm =>
    h m sets' (List.mem_append_right _ (List.mem_cons_of_mem _ hm))
  obtain ⟨a₀, ha₀, hida, hfita₀⟩ :=
    exists_before (hskey ▸ hunset hk.unsetSource) hs ha hfita
  obtain ⟨b₀, hb₀, hidb, hfitb₀⟩ :=
    exists_before (htkey ▸ hunset hk.unsetTarget) ht hb hfitb
  have hpair : (a₀.id, b₀.id) ∈ ((run equal ss g).matching equal s).flatMap
      fun a => ((run equal ss g).matching equal t).map fun b => (a, b) :=
    (Graph.mem_pairs equal).mpr ⟨(Graph.mem_matching equal).mpr ⟨a₀, ha₀, hfita₀, rfl⟩,
      (Graph.mem_matching equal).mpr ⟨b₀, hb₀, hfitb₀, rfl⟩⟩
  have hst : Statement.mergeEdge s t k.type keys sets ∈
      ss ++ .mergeEdge s t k.type keys sets :: tt := by simp
  obtain ⟨e, he, hfits⟩ : ∃ e ∈ ((run equal ss g).mergeEdge equal s t k.type keys sets).edges,
      e.fits equal k.type keys a₀.id b₀.id = true :=
    exists_linked hpair (hkeys ▸ k.nodup) (fun x hx => hsets ▸ k.apart x.1 (hnames x hx))
      fun x hx => (hk.equal_iff s t keys sets hst s t keys sets hst x hx x hx).mpr rfl
  obtain ⟨htype, hsource, htarget, hvalues⟩ := Edge.fits_iff.mp hfits
  rw [List.append_cons] at hk
  obtain ⟨e', he', htype', hsource', htarget', hprops⟩ := exists_edge_run
    (g := (run equal ss g).mergeEdge equal s t k.type keys sets) hk he htype
  refine ⟨e'.props, List.mem_filterMap.mpr ⟨e', he', Graph.path_eq_some.mpr ⟨htype', a, ha, b, hb,
    ?_, ?_, hla, hlb, rfl⟩⟩, fun x hx => ?_⟩
  · rw [← hida, hsource', hsource]
  · rw [← hidb, htarget', htarget]
  · rw [Props.has, hprops x.1 (hnames x hx)]
    exact hvalues x hx

end

end

end ControlPlane.PropertyGraph
