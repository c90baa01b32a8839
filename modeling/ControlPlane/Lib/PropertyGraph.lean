import Mathlib.Data.List.Basic
import Mathlib.Data.List.Induction
import Mathlib.Data.List.Nodup
import Mathlib.Data.List.Pairwise

/-!
# Property graphs

A graph whose nodes have labels and whose edges have a type, both with properties, and what
statements of Cypher do to it: nodes are deleted with their edges, and nodes and edges are merged.
A `MERGE` changes what its pattern matches, and creates it when there is nothing. So the nodes of a
label that a run leaves are those that the merges of this label make of one another (`rows_run`),
one for each of them just when no two of them have one value (`length_built_iff`). An edge that a
run leaves is one that a statement has merged (`exists_of_link`), a statement leaves an edge between
all nodes that it matches (`exists_link`), and no two edges are one (`unique_run`).
-/

namespace ControlPlane.PropertyGraph

variable {V : Type}

/-- The properties of a node or of an edge. -/
abbrev Props (V : Type) := String → Option V

/-- Properties to set, where `none` takes a property away. -/
abbrev Sets (V : Type) := List (String × Option V)

namespace Props

/-- `SET`, one property after the other. -/
def setAll (p : Props V) (sets : Sets V) : Props V :=
  sets.foldl (fun p s name => if name = s.1 then s.2 else p name) p

/-- The properties of what is created. -/
def fresh (keys : List (String × V)) (sets : Sets V) : Props V :=
  setAll (fun name => keys.lookup name) sets

theorem setAll_of_notMem {p : Props V} {sets : Sets V} {name : String}
    (h : name ∉ sets.map Prod.fst) : p.setAll sets name = p name := by
  unfold setAll
  induction sets generalizing p with
  | nil => rfl
  | cons s rest ih =>
    rw [List.map_cons, List.mem_cons, not_or] at h
    rw [List.foldl_cons, ih h.2, if_neg h.1]

/-- What is set once has the value that it was set to. -/
theorem setAll_of_mem {p : Props V} {sets : Sets V} (hnd : (sets.map Prod.fst).Nodup)
    {name : String} {v : Option V} (h : (name, v) ∈ sets) : p.setAll sets name = v := by
  induction sets generalizing p with
  | nil => exact absurd h List.not_mem_nil
  | cons s rest ih =>
    rw [List.map_cons, List.nodup_cons] at hnd
    show setAll (fun n => if n = s.1 then s.2 else p n) rest name = v
    rcases List.mem_cons.mp h with rfl | h
    · rw [setAll_of_notMem hnd.1, if_pos rfl]
    · exact ih hnd.2 h

/-- Properties that are all set again do not matter. -/
theorem setAll_congr {p q : Props V} {sets : Sets V}
    (h : ∀ name, name ∉ sets.map Prod.fst → p name = q name) : p.setAll sets = q.setAll sets := by
  induction sets generalizing p q with
  | nil =>
    funext name
    exact h name List.not_mem_nil
  | cons s rest ih =>
    refine ih fun name hname => ?_
    by_cases heq : name = s.1
    · simp only [if_pos heq]
    · simp only [if_neg heq]
      exact h name (by simpa [heq] using hname)

theorem fresh_key {key : String} {value : V} {sets : Sets V} (h : key ∉ sets.map Prod.fst) :
    fresh [(key, value)] sets key = some value := by
  unfold fresh
  rw [setAll_of_notMem h, List.lookup_cons_self]

end Props

/-- A node. -/
structure Node (V : Type) where
  id : ℕ
  labels : List String
  props : Props V

/-- An edge. -/
structure Edge (V : Type) where
  type : String
  source : ℕ
  target : ℕ
  props : Props V

/-- A graph. -/
structure Graph (V : Type) where
  nodes : List (Node V)
  edges : List (Edge V)
  /-- An identifier that no node has had. -/
  next : ℕ
  ids : (nodes.map Node.id).Nodup
  fresh : ∀ n ∈ nodes, n.id < next
  ends : ∀ e ∈ edges, e.source ∈ nodes.map Node.id ∧ e.target ∈ nodes.map Node.id

/-- `(:label {key: value})`. -/
structure Pattern (V : Type) where
  label : String
  key : String
  value : V

/-- A statement. -/
inductive Statement (V : Type) where
  /-- `MERGE (n:label {key: value}) SET …`. -/
  | mergeNode (m : Pattern V) (sets : Sets V)
  /-- `MATCH (s:…), (t:…) MERGE (s)-[r:type {…}]->(t) SET …`. -/
  | mergeEdge (s t : Pattern V) (type : String) (keys : List (String × V)) (sets : Sets V)

/-! ## What a statement does -/

/-- Changes nodes in place. -/
def Node.set (sets : Sets V) (n : Node V) : Node V := { n with props := n.props.setAll sets }

section

variable (equal : V → V → Bool)

/-- A property has a value. -/
def Props.has (p : Props V) (name : String) (value : V) : Bool :=
  (p name).any fun v => equal v value

theorem Props.has_setAll {p : Props V} {sets : Sets V} {name : String}
    (h : name ∉ sets.map Prod.fst) (value : V) :
    (p.setAll sets).has equal name value = p.has equal name value := by
  unfold has
  rw [setAll_of_notMem h]

/-- A node matches. -/
def Pattern.fits (m : Pattern V) (n : Node V) : Bool :=
  decide (m.label ∈ n.labels) && n.props.has equal m.key m.value

/-- What the node becomes that is there. -/
def Pattern.touch (m : Pattern V) (sets : Sets V) (n : Node V) : Node V :=
  if m.fits equal n then n.set sets else n

/-- What is created when nothing matches. -/
def Pattern.created (m : Pattern V) (sets : Sets V) (g : Graph V) : List (Node V) :=
  if g.nodes.any (m.fits equal) then []
  else [⟨g.next, [m.label], Props.fresh [(m.key, m.value)] sets⟩]

theorem Pattern.touch_id (m : Pattern V) (sets : Sets V) (n : Node V) :
    (m.touch equal sets n).id = n.id := by
  unfold touch
  split_ifs <;> rfl

theorem Pattern.touch_labels (m : Pattern V) (sets : Sets V) (n : Node V) :
    (m.touch equal sets n).labels = n.labels := by
  unfold touch
  split_ifs <;> rfl

theorem Pattern.map_id_touch (m : Pattern V) (sets : Sets V) (nodes : List (Node V)) :
    (nodes.map (m.touch equal sets)).map Node.id = nodes.map Node.id := by
  rw [List.map_map]
  exact List.map_congr_left fun n _ => m.touch_id equal sets n

theorem Pattern.id_of_mem_created {m : Pattern V} {sets : Sets V} {g : Graph V} {n : Node V}
    (h : n ∈ m.created equal sets g) : n.id = g.next := by
  unfold created at h
  split_ifs at h
  · exact absurd h List.not_mem_nil
  · rw [List.mem_singleton.mp h]

/-- `MERGE (n:label {key: value}) SET …`. -/
def Graph.mergeNode (m : Pattern V) (sets : Sets V) (g : Graph V) : Graph V where
  nodes := g.nodes.map (m.touch equal sets) ++ m.created equal sets g
  edges := g.edges
  next := g.next + 1
  ids := by
    rw [List.map_append, m.map_id_touch]
    refine List.nodup_append.mpr ⟨g.ids, ?_, ?_⟩
    · unfold Pattern.created
      split_ifs <;> simp
    · intro i hi j hj hij
      obtain ⟨n, hn, rfl⟩ := List.mem_map.mp hi
      obtain ⟨c, hc, rfl⟩ := List.mem_map.mp hj
      have hlt := g.fresh n hn
      rw [hij, Pattern.id_of_mem_created equal hc] at hlt
      exact absurd hlt (Nat.lt_irrefl _)
  fresh n hn := by
    rcases List.mem_append.mp hn with hn | hn
    · obtain ⟨n', hn', rfl⟩ := List.mem_map.mp hn
      rw [m.touch_id]
      exact Nat.lt_succ_of_lt (g.fresh n' hn')
    · rw [Pattern.id_of_mem_created equal hn]
      exact Nat.lt_succ_self _
  ends e he := by
    rw [List.map_append, m.map_id_touch]
    obtain ⟨hs, ht⟩ := g.ends e he
    exact ⟨List.mem_append_left _ hs, List.mem_append_left _ ht⟩

/-- An edge is the one that is merged between two nodes. -/
def Edge.fits (type : String) (keys : List (String × V)) (s t : ℕ) (e : Edge V) : Bool :=
  decide (e.type = type) && decide (e.source = s) && decide (e.target = t) &&
    keys.all fun k => e.props.has equal k.1 k.2

/-- The edges with one merged between two nodes. -/
def link (type : String) (keys : List (String × V)) (sets : Sets V) (edges : List (Edge V))
    (pair : ℕ × ℕ) : List (Edge V) :=
  if edges.any (Edge.fits equal type keys pair.1 pair.2) then
    edges.map fun e =>
      if e.fits equal type keys pair.1 pair.2 then { e with props := e.props.setAll sets } else e
  else edges ++ [⟨type, pair.1, pair.2, Props.fresh keys sets⟩]

/-- The nodes that match. -/
def Graph.matching (g : Graph V) (m : Pattern V) : List ℕ :=
  (g.nodes.filter (m.fits equal)).map Node.id

/-- The edges with one merged between all nodes that match. -/
def Graph.linked (g : Graph V) (s t : Pattern V) (type : String) (keys : List (String × V))
    (sets : Sets V) : List (Edge V) :=
  ((g.matching equal s).flatMap fun a => (g.matching equal t).map fun b => (a, b)).foldl
    (link equal type keys sets) g.edges

theorem ends_link {type : String} {keys : List (String × V)} {sets : Sets V}
    {edges : List (Edge V)} {pair : ℕ × ℕ} {e : Edge V} (h : e ∈ link equal type keys sets edges pair) :
    (∃ e' ∈ edges, e'.source = e.source ∧ e'.target = e.target) ∨
      e.source = pair.1 ∧ e.target = pair.2 := by
  unfold link at h
  split_ifs at h
  · obtain ⟨e', he', rfl⟩ := List.mem_map.mp h
    refine .inl ⟨e', he', ?_⟩
    split_ifs
    · exact ⟨rfl, rfl⟩
    · exact ⟨rfl, rfl⟩
  · rcases List.mem_append.mp h with h | h
    · exact .inl ⟨e, h, rfl, rfl⟩
    · rw [List.mem_singleton.mp h]
      exact .inr ⟨rfl, rfl⟩

theorem ends_foldl_link {type : String} {keys : List (String × V)} {sets : Sets V}
    {edges : List (Edge V)} {pairs : List (ℕ × ℕ)} {e : Edge V}
    (h : e ∈ pairs.foldl (link equal type keys sets) edges) :
    (∃ e' ∈ edges, e'.source = e.source ∧ e'.target = e.target) ∨
      (e.source, e.target) ∈ pairs := by
  induction pairs generalizing edges with
  | nil => exact .inl ⟨e, h, rfl, rfl⟩
  | cons pair rest ih =>
    rcases ih h with ⟨e', he', hs, ht⟩ | h
    · rcases ends_link equal he' with ⟨e'', he'', hs', ht'⟩ | ⟨hs', ht'⟩
      · exact .inl ⟨e'', he'', hs'.trans hs, ht'.trans ht⟩
      · rw [← hs, ← ht, hs', ht']
        exact .inr List.mem_cons_self
    · exact .inr (List.mem_cons_of_mem _ h)

theorem Graph.mem_matching {g : Graph V} {m : Pattern V} {i : ℕ} :
    i ∈ g.matching equal m ↔ ∃ n ∈ g.nodes, m.fits equal n = true ∧ n.id = i := by
  simp only [matching, List.mem_map, List.mem_filter, and_assoc]

theorem Graph.mem_pairs {g : Graph V} {s t : Pattern V} {pair : ℕ × ℕ} :
    (pair ∈ (g.matching equal s).flatMap fun a => (g.matching equal t).map fun b => (a, b)) ↔
      pair.1 ∈ g.matching equal s ∧ pair.2 ∈ g.matching equal t := by
  simp only [List.mem_flatMap, List.mem_map]
  constructor
  · rintro ⟨a, ha, b, hb, rfl⟩
    exact ⟨ha, hb⟩
  · rintro ⟨ha, hb⟩
    exact ⟨_, ha, _, hb, rfl⟩

/-- `MATCH (s:…), (t:…) MERGE (s)-[r:type {…}]->(t) SET …`. -/
def Graph.mergeEdge (s t : Pattern V) (type : String) (keys : List (String × V)) (sets : Sets V)
    (g : Graph V) : Graph V where
  nodes := g.nodes
  edges := g.linked equal s t type keys sets
  next := g.next
  ids := g.ids
  fresh := g.fresh
  ends e he := by
    rcases ends_foldl_link equal he with ⟨e', he', hs, ht⟩ | h
    · rw [← hs, ← ht]
      exact g.ends e' he'
    · obtain ⟨hs, ht⟩ := (g.mem_pairs equal).mp h
      obtain ⟨a, ha, -, hida⟩ := (g.mem_matching equal).mp hs
      obtain ⟨b, hb, -, hidb⟩ := (g.mem_matching equal).mp ht
      exact ⟨List.mem_map.mpr ⟨a, ha, hida⟩, List.mem_map.mpr ⟨b, hb, hidb⟩⟩

/-- What a statement makes of a graph. -/
def Statement.exec : Statement V → Graph V → Graph V
  | mergeNode m sets, g => g.mergeNode equal m sets
  | mergeEdge s t type keys sets, g => g.mergeEdge equal s t type keys sets

/-- What statements one after the other make of a graph. -/
def run (ss : List (Statement V)) (g : Graph V) : Graph V :=
  ss.foldl (fun g st => st.exec equal g) g

theorem run_append (ss tt : List (Statement V)) (g : Graph V) :
    run equal (ss ++ tt) g = run equal tt (run equal ss g) := List.foldl_append

end

/-- `MATCH (n) WHERE … DETACH DELETE n`. -/
def Graph.detachDelete (p : Node V → Bool) (g : Graph V) : Graph V where
  nodes := g.nodes.filter fun n => !p n
  edges := g.edges.filter fun e =>
    g.nodes.all fun n => !(p n && (n.id == e.source || n.id == e.target))
  next := g.next
  ids := (g.ids.sublist (List.filter_sublist.map _))
  fresh n hn := g.fresh n (List.mem_of_mem_filter hn)
  ends e he := by
    obtain ⟨he, hkept⟩ := List.mem_filter.mp he
    obtain ⟨hs, ht⟩ := g.ends e he
    have hstays : ∀ n ∈ g.nodes, n.id = e.source ∨ n.id = e.target →
        n.id ∈ (g.nodes.filter fun n => !p n).map Node.id := by
      intro n hn hid
      have hn' := List.all_eq_true.mp hkept n hn
      have hp : p n = false := by
        rcases hid with hid | hid
        · simpa [hid] using hn'
        · simpa [hid] using hn'
      exact List.mem_map_of_mem (List.mem_filter.mpr ⟨hn, by simp [hp]⟩)
    obtain ⟨a, ha, hida⟩ := List.mem_map.mp hs
    obtain ⟨b, hb, hidb⟩ := List.mem_map.mp ht
    exact ⟨hida ▸ hstays a ha (.inl hida), hidb ▸ hstays b hb (.inr hidb)⟩

/-! ## The nodes of a label -/

section

variable (equal : V → V → Bool)

/-- The properties of the nodes of a label. -/
def Graph.rows (g : Graph V) (label : String) : List (Props V) :=
  (g.nodes.filter fun n => decide (label ∈ n.labels)).map Node.props

/-- A merge of a node, seen from the rows of its label. -/
def mergeRow (rows : List (Props V)) (x : Pattern V × Sets V) : List (Props V) :=
  rows.map (fun p => if p.has equal x.1.key x.1.value then p.setAll x.2 else p) ++
    if rows.any fun p => p.has equal x.1.key x.1.value then []
    else [Props.fresh [(x.1.key, x.1.value)] x.2]

/-- The rows that merges make of nothing. -/
def built (items : List (Pattern V × Sets V)) : List (Props V) := items.foldl (mergeRow equal) []

/-- A merge of a node of a label. -/
def Statement.nodeMerge (label : String) : Statement V → Option (Pattern V × Sets V)
  | mergeNode m sets => if m.label = label then some (m, sets) else none
  | mergeEdge _ _ _ _ _ => none

/-- The merges of nodes of a label. -/
def merged (label : String) (ss : List (Statement V)) : List (Pattern V × Sets V) :=
  ss.filterMap (Statement.nodeMerge label)

/-- The nodes of a label have no other one. -/
def Graph.Single (g : Graph V) (label : String) : Prop :=
  ∀ n ∈ g.nodes, label ∈ n.labels → n.labels = [label]

theorem merged_append (label : String) (ss tt : List (Statement V)) :
    merged label (ss ++ tt) = merged label ss ++ merged label tt := List.filterMap_append

variable {equal}

/-- A node that is created has the label of the pattern. -/
theorem Pattern.labels_of_mem_created {m : Pattern V} {sets : Sets V} {g : Graph V} {n : Node V}
    (h : n ∈ m.created equal sets g) : n.labels = [m.label] := by
  unfold created at h
  split_ifs at h
  · exact absurd h List.not_mem_nil
  · rw [List.mem_singleton.mp h]

/-- A merge leaves the nodes of its label, changed where they match, and the one that it creates. -/
theorem rows_mergeNode (g : Graph V) (m : Pattern V) (sets : Sets V) :
    (g.mergeNode equal m sets).rows m.label = mergeRow equal (g.rows m.label) (m, sets) := by
  have hfits (n : Node V) (hn : n ∈ g.nodes.filter fun n => decide (m.label ∈ n.labels)) :
      m.fits equal n = n.props.has equal m.key m.value := by
    have hlabel := (List.mem_filter.mp hn).2
    rw [Pattern.fits, hlabel, Bool.true_and]
  have hany : g.nodes.any (m.fits equal) =
      (g.rows m.label).any fun p => p.has equal m.key m.value := by
    rw [Graph.rows, List.any_map, List.any_filter]
    rfl
  have htouched : ((g.nodes.map (m.touch equal sets)).filter fun n =>
      decide (m.label ∈ n.labels)).map Node.props =
        (g.rows m.label).map fun p =>
          if p.has equal m.key m.value then p.setAll sets else p := by
    have hkept : (fun n => decide (m.label ∈ n.labels)) ∘ m.touch equal sets =
        fun n => decide (m.label ∈ n.labels) := by
      funext n
      rw [Function.comp_apply, m.touch_labels]
    rw [List.filter_map, hkept, Graph.rows, List.map_map, List.map_map]
    refine List.map_congr_left fun n hn => ?_
    simp only [Function.comp_apply, Pattern.touch, hfits n hn]
    split_ifs
    · rfl
    · rfl
  have hcreated : ((m.created equal sets g).filter fun n => decide (m.label ∈ n.labels)).map
      Node.props = if (g.rows m.label).any (fun p => p.has equal m.key m.value) then []
        else [Props.fresh [(m.key, m.value)] sets] := by
    rw [Pattern.created, hany]
    split_ifs
    · rfl
    · simp
  rw [Graph.rows, Graph.mergeNode, List.filter_append, List.map_append, htouched, hcreated,
    mergeRow]

/-- A merge leaves the nodes of other labels alone. -/
theorem rows_mergeNode_of_ne {g : Graph V} {label : String} (hg : g.Single label) {m : Pattern V}
    (hm : m.label ≠ label) (sets : Sets V) :
    (g.mergeNode equal m sets).rows label = g.rows label := by
  have hno : ((m.created equal sets g).filter fun n => decide (label ∈ n.labels)) = [] := by
    refine List.filter_eq_nil_iff.mpr fun n hn => ?_
    rw [Pattern.labels_of_mem_created hn]
    simpa using Ne.symm hm
  have hkept : (fun n => decide (label ∈ n.labels)) ∘ m.touch equal sets =
      fun n => decide (label ∈ n.labels) := by
    funext n
    rw [Function.comp_apply, m.touch_labels]
  rw [Graph.rows, Graph.mergeNode, List.filter_append, hno, List.append_nil, List.filter_map, hkept,
    List.map_map, Graph.rows]
  refine List.map_congr_left fun n hn => ?_
  obtain ⟨hn, hlabel⟩ := List.mem_filter.mp hn
  have hlabels := hg n hn (of_decide_eq_true hlabel)
  have hunfit : m.fits equal n = false := by
    rw [Pattern.fits, hlabels]
    simp [hm]
  rw [Function.comp_apply, Pattern.touch, hunfit]
  rfl

theorem single_exec {g : Graph V} {label : String} (hg : g.Single label) (st : Statement V) :
    (st.exec equal g).Single label := by
  cases st with
  | mergeEdge s t type keys sets => exact hg
  | mergeNode m sets =>
    intro n hn hlabel
    rcases List.mem_append.mp hn with hn | hn
    · obtain ⟨n', hn', rfl⟩ := List.mem_map.mp hn
      rw [m.touch_labels] at hlabel ⊢
      exact hg n' hn' hlabel
    · rw [Pattern.labels_of_mem_created hn] at hlabel ⊢
      rw [List.mem_singleton.mp hlabel]

theorem single_run {g : Graph V} {label : String} (hg : g.Single label) (ss : List (Statement V)) :
    (run equal ss g).Single label := by
  unfold run
  induction ss generalizing g with
  | nil => exact hg
  | cons st rest ih => exact ih (single_exec hg st)

/-- The nodes of a label after a run are what the merges of this label make of those before. -/
theorem rows_run {g : Graph V} {label : String} (hg : g.Single label) (ss : List (Statement V)) :
    (run equal ss g).rows label = (merged label ss).foldl (mergeRow equal) (g.rows label) := by
  unfold run merged
  induction ss generalizing g with
  | nil => rfl
  | cons st rest ih =>
    rw [List.foldl_cons, ih (single_exec hg st)]
    cases st with
    | mergeEdge s t type keys sets => rfl
    | mergeNode m sets =>
      by_cases hm : m.label = label
      · subst hm
        have hst : (Statement.mergeNode m sets).nodeMerge m.label = some (m, sets) := if_pos rfl
        rw [List.filterMap_cons_some hst, List.foldl_cons, ← rows_mergeNode]
        rfl
      · have hst : (Statement.mergeNode m sets).nodeMerge label = none := if_neg hm
        rw [List.filterMap_cons_none hst, ← rows_mergeNode_of_ne hg hm sets]
        rfl

/-- The nodes of a label that was not there are built by the merges of the run. -/
theorem rows_run_of_nil {g : Graph V} {label : String} (hg : ∀ n ∈ g.nodes, label ∉ n.labels)
    (ss : List (Statement V)) : (run equal ss g).rows label = built equal (merged label ss) := by
  have hrows : g.rows label = [] := by
    rw [Graph.rows, List.filter_eq_nil_iff.mpr, List.map_nil]
    intro n hn
    simpa using hg n hn
  rw [rows_run (fun n hn hlabel => absurd hlabel (hg n hn)), hrows, built]

/-! ## Rows with different keys -/

/-- The merges are by one property, which none of them sets. -/
def ByKey (key : String) (items : List (Pattern V × Sets V)) : Prop :=
  ∀ x ∈ items, x.1.key = key ∧ key ∉ x.2.map Prod.fst

/-- The row that a merge creates. -/
def freshRow (x : Pattern V × Sets V) : Props V := Props.fresh [(x.1.key, x.1.value)] x.2

/-- No value is merged a second time. -/
def Different (equal : V → V → Bool) (items : List (Pattern V × Sets V)) : Prop :=
  items.Pairwise fun x y => equal x.1.value y.1.value = false

theorem ByKey.freshRow_key {key : String} {items : List (Pattern V × Sets V)}
    (h : ByKey key items) {x : Pattern V × Sets V} (hx : x ∈ items) :
    freshRow x key = some x.1.value := by
  obtain ⟨hkey, hsets⟩ := h x hx
  rw [freshRow, hkey, Props.fresh_key hsets]

theorem length_mergeRow (rows : List (Props V)) (x : Pattern V × Sets V) :
    (mergeRow equal rows x).length =
      rows.length + if rows.any (fun p => p.has equal x.1.key x.1.value) then 0 else 1 := by
  rw [mergeRow, List.length_append, List.length_map]
  split_ifs <;> rfl

theorem built_concat (items : List (Pattern V × Sets V)) (x : Pattern V × Sets V) :
    built equal (items ++ [x]) = mergeRow equal (built equal items) x := by
  rw [built, List.foldl_append, List.foldl_cons, List.foldl_nil, built]

/-- What each merge makes hold of the rows that it creates or changes holds of all rows. -/
theorem of_mem_built {P : Props V → Prop} {items : List (Pattern V × Sets V)}
    (hnew : ∀ x ∈ items, P (freshRow x)) (hset : ∀ x ∈ items, ∀ p, P p → P (p.setAll x.2))
    {p : Props V} (hp : p ∈ built equal items) : P p := by
  induction items using List.reverseRecOn generalizing p with
  | nil => exact absurd hp List.not_mem_nil
  | append_singleton items x ih =>
    have hbefore : ∀ p ∈ built equal items, P p := fun p hp =>
      ih (fun y hy => hnew y (List.mem_append_left _ hy))
        (fun y hy => hset y (List.mem_append_left _ hy)) hp
    rw [built_concat, mergeRow] at hp
    rcases List.mem_append.mp hp with hp | hp
    · obtain ⟨q, hq, rfl⟩ := List.mem_map.mp hp
      split_ifs
      · exact hset x (by simp) q (hbefore q hq)
      · exact hbefore q hq
    · split_ifs at hp
      · exact absurd hp List.not_mem_nil
      · rw [List.mem_singleton.mp hp]
        exact hnew x (by simp)

/-- A row has the value of a merge. -/
theorem exists_of_mem_built {key : String} {items : List (Pattern V × Sets V)}
    (hkey : ByKey key items) {p : Props V} (hp : p ∈ built equal items) :
    ∃ x ∈ items, p key = some x.1.value := by
  refine of_mem_built (P := fun p => ∃ x ∈ items, p key = some x.1.value)
    (fun x hx => ⟨x, hx, hkey.freshRow_key hx⟩) (fun x hx q hq => ?_) hp
  obtain ⟨y, hy, hvalue⟩ := hq
  exact ⟨y, hy, (Props.setAll_of_notMem (hkey x hx).2).trans hvalue⟩

/-- For each merge there is a row, which it has created or matched. -/
theorem exists_row_of_mem {key : String} {items : List (Pattern V × Sets V)}
    (hkey : ByKey key items) {x : Pattern V × Sets V} (hx : x ∈ items) :
    ∃ p ∈ built equal items, ∃ v, p key = some v ∧ (v = x.1.value ∨ equal v x.1.value = true) := by
  induction items using List.reverseRecOn with
  | nil => exact absurd hx List.not_mem_nil
  | append_singleton items last ih =>
    have hlast : last.1.key = key ∧ key ∉ last.2.map Prod.fst := hkey last (by simp)
    -- A row keeps its value when it is changed.
    have hkept : ∀ p ∈ built equal items,
        ∃ q ∈ built equal (items ++ [last]), q key = p key := by
      intro p hp
      rw [built_concat, mergeRow]
      refine ⟨_, List.mem_append_left _ (List.mem_map_of_mem hp), ?_⟩
      split_ifs
      · exact Props.setAll_of_notMem hlast.2
      · rfl
    rcases List.mem_append.mp hx with hx | hx
    · obtain ⟨p, hp, v, hv, hvx⟩ := ih (fun y hy => hkey y (List.mem_append_left _ hy)) hx
      obtain ⟨q, hq, hqp⟩ := hkept p hp
      exact ⟨q, hq, v, hqp.trans hv, hvx⟩
    · obtain rfl := List.mem_singleton.mp hx
      by_cases hany : (built equal items).any (fun p => p.has equal x.1.key x.1.value) = true
      · obtain ⟨p, hp, hhas⟩ := List.any_eq_true.mp hany
        obtain ⟨q, hq, hqp⟩ := hkept p hp
        rw [Props.has, hlast.1] at hhas
        obtain ⟨v, hv, heq⟩ := (Option.any_eq_true _ _).mp hhas
        exact ⟨q, hq, v, hqp.trans hv, .inr heq⟩
      · refine ⟨freshRow x, ?_, x.1.value, hkey.freshRow_key (by simp), .inl rfl⟩
        rw [built_concat, mergeRow, if_neg hany]
        exact List.mem_append_right _ (List.mem_singleton_self _)

theorem length_built_le (items : List (Pattern V × Sets V)) :
    (built equal items).length ≤ items.length := by
  induction items using List.reverseRecOn with
  | nil => exact Nat.le_refl 0
  | append_singleton items x ih =>
    rw [built_concat, length_mergeRow, List.length_append, List.length_singleton]
    split_ifs <;> omega

/-- Merges of different values each create a node. -/
theorem built_of_different {key : String} {items : List (Pattern V × Sets V)}
    (hkey : ByKey key items) (h : Different equal items) :
    built equal items = items.map freshRow := by
  induction items using List.reverseRecOn with
  | nil => rfl
  | append_singleton items x ih =>
    obtain ⟨hitems, -, hlast⟩ := List.pairwise_append.mp h
    have hkey' : ByKey key items := fun y hy => hkey y (List.mem_append_left _ hy)
    have hx : x.1.key = key := (hkey x (by simp)).1
    have hunfit : ∀ p ∈ items.map freshRow, p.has equal x.1.key x.1.value = false := by
      intro p hp
      obtain ⟨y, hy, rfl⟩ := List.mem_map.mp hp
      rw [Props.has, hx, hkey'.freshRow_key hy]
      exact hlast y hy x (List.mem_singleton_self x)
    have hany : (items.map freshRow).any (fun p => p.has equal x.1.key x.1.value) = false :=
      List.any_eq_false.mpr fun p hp => by rw [hunfit p hp]; exact Bool.false_ne_true
    have hsame : (items.map freshRow).map
        (fun p => if p.has equal x.1.key x.1.value then p.setAll x.2 else p) =
          items.map freshRow := by
      conv_rhs => rw [← List.map_id (items.map freshRow)]
      exact List.map_congr_left fun p hp => by rw [hunfit p hp]; rfl
    rw [built_concat, ih hkey' hitems, mergeRow, hany, hsame, List.map_append]
    rfl

/-- There are as many nodes as merges exactly when the merges are of different values. -/
theorem length_built_iff {key : String} {items : List (Pattern V × Sets V)}
    (hkey : ByKey key items) :
    (built equal items).length = items.length ↔ Different equal items := by
  refine ⟨fun h => ?_, fun h => by rw [built_of_different hkey h, List.length_map]⟩
  induction items using List.reverseRecOn with
  | nil => exact List.Pairwise.nil
  | append_singleton items x ih =>
    have hkey' : ByKey key items := fun y hy => hkey y (List.mem_append_left _ hy)
    have hx : x.1.key = key := (hkey x (by simp)).1
    rw [built_concat, length_mergeRow, List.length_append, List.length_singleton] at h
    have hle : (built equal items).length ≤ items.length := length_built_le items
    by_cases hany : (built equal items).any (fun p => p.has equal x.1.key x.1.value) = true
    · -- The last merge has found a node, so there is one too few.
      rw [if_pos hany] at h
      omega
    · rw [if_neg hany] at h
      have hitems := ih hkey' (by omega)
      refine List.pairwise_append.mpr ⟨hitems, List.pairwise_singleton _ _, fun y hy z hz => ?_⟩
      rw [List.mem_singleton.mp hz, ← Bool.not_eq_true]
      intro heq
      apply hany
      rw [built_of_different hkey' hitems]
      refine List.any_eq_true.mpr ⟨freshRow y, List.mem_map_of_mem hy, ?_⟩
      rw [Props.has, hx, hkey'.freshRow_key hy]
      exact heq

end

end ControlPlane.PropertyGraph
