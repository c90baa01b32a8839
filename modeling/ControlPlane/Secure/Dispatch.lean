import ControlPlane.Secure.Sunny
import Mathlib.Order.Bounds.Basic

/-!
# Which operation a message is taken for

`handle_rpc` looks for the operation of a message among all the descendants of its root, for one
name after the other. What it performs is therefore the least operation, in the order of these
searches, that any element of the message is named after (`isLeast_dispatched`). A message with one
operation is taken for it exactly when nothing in its payload is named after an operation that is
searched for earlier (`performs_named_iff`).
-/

namespace ControlPlane.Secure

open SfOp

/-- The operations that `handle_rpc` has a branch for, in the order of the branches. -/
inductive RpcOperation where
  | getConfig
  | get
  | editConfig
  | getSchema
  | lock
  | unlock
  | commit
  | closeSession
  | unknown
  deriving DecidableEq

namespace RpcOperation

/-- The place of the branch of an operation. -/
def rank : RpcOperation → ℕ
  | getConfig => 0
  | get => 1
  | editConfig => 2
  | getSchema => 3
  | lock => 4
  | unlock => 5
  | commit => 6
  | closeSession => 7
  | unknown => 8

/-- The name of an operation. -/
def name : RpcOperation → String
  | getConfig => "get-config"
  | get => "get"
  | editConfig => "edit-config"
  | getSchema => "get-schema"
  | lock => "lock"
  | unlock => "unlock"
  | commit => "commit"
  | closeSession => "close-session"
  | unknown => ""

theorem rank_injective : Function.Injective rank := by
  intro op op' h
  cases op <;> cases op' <;> first | rfl | exact absurd h (by decide)

/-- An operation is less than another one when its branch comes first. -/
instance : LinearOrder RpcOperation := LinearOrder.lift' rank rank_injective

theorem le_unknown (op : RpcOperation) : op ≤ unknown := by
  show op.rank ≤ 8
  cases op <;> decide

end RpcOperation

/-- The operation that an element is named after. A `get-schema` is one in any namespace. -/
def named (x : Xml) : RpcOperation :=
  if x.tag = "get-schema" then .getSchema
  else if x.ns ≠ NS_NC then .unknown
  else
    match x.tag with
    | "get-config" => .getConfig
    | "get" => .get
    | "edit-config" => .editConfig
    | "lock" => .lock
    | "unlock" => .unlock
    | "commit" => .commit
    | "close-session" => .closeSession
    | _ => .unknown

/-- The branch of `handle_rpc` that a message is handled in. -/
def dispatched (root : Xml) : RpcOperation :=
  let has (name : String) := root.selectNs NS_NC name ≠ []
  if has "get-config" then .getConfig
  else if has "get" then .get
  else if has "edit-config" then .editConfig
  else if root.select "get-schema" ≠ [] then .getSchema
  else if has "lock" then .lock
  else if has "unlock" then .unlock
  else if has "commit" then .commit
  else if has "close-session" then .closeSession
  else .unknown

/-- What the branch of an operation does with a message. -/
def perform (cfg : SfConfig) (session : Option Client) (root : Xml) : RpcOperation → SfM Bool
  | .getConfig => do
    handleGetConfig session
    Act.perform (sendResponse (.data (messageIdOf root)))
  | .get => do
    if cfg.isMonitoring root then Act.perform (sendResponse (.data (messageIdOf root)))
    else
      handleGetConfig session
      Act.perform (sendResponse (.data (messageIdOf root)))
  | .editConfig => do
    Act.perform (sendResponse (← handleEditConfig cfg session root))
  | .getSchema => Act.perform (sendResponse (.data (messageIdOf root)))
  | .closeSession => do
    let _ ← Act.perform (sendResponse (.ok (messageIdOf root)))
    return false
  | .lock | .unlock | .commit | .unknown => Act.perform (sendResponse (.ok (messageIdOf root)))

/-- `handle_rpc` handles a message in the branch of an operation. -/
def Performs (cfg : SfConfig) (session : Option Client) (root : Xml) (op : RpcOperation) : Prop :=
  dispatched root = op ∧ handleRpc cfg session (.ok root) = perform cfg session root op

/-- An `rpc` with an operation. -/
def rpc (attrs : List (String × String)) (text : Option String) (op : Xml) : Xml :=
  .node NS_NC "rpc" attrs text [op]

/-- `handle_rpc` is the branch that a message is handled in. -/
theorem handleRpc_eq (cfg : SfConfig) (session : Option Client) (root : Xml) :
    handleRpc cfg session (.ok root) = perform cfg session root (dispatched root) := by
  unfold handleRpc dispatched
  simp only
  split_ifs <;> first | rfl | simp_all [perform]

/-! ## The searches -/

/-- The search of `handle_rpc` for an operation has a result. -/
def Found (root : Xml) : RpcOperation → Prop
  | .getConfig => root.selectNs NS_NC "get-config" ≠ []
  | .get => root.selectNs NS_NC "get" ≠ []
  | .editConfig => root.selectNs NS_NC "edit-config" ≠ []
  | .getSchema => root.select "get-schema" ≠ []
  | .lock => root.selectNs NS_NC "lock" ≠ []
  | .unlock => root.selectNs NS_NC "unlock" ≠ []
  | .commit => root.selectNs NS_NC "commit" ≠ []
  | .closeSession => root.selectNs NS_NC "close-session" ≠ []
  | .unknown => True

/-- The branch that is taken is the first one whose search has a result. -/
theorem dispatched_spec (root : Xml) :
    Found root (dispatched root) ∧ ∀ op < dispatched root, ¬ Found root op := by
  unfold dispatched
  simp only
  split_ifs <;> refine ⟨by first | assumption | trivial, fun op hlt => ?_⟩ <;>
    cases op <;> first | assumption | exact absurd hlt (by decide)

theorem named_eq_getSchema_iff {x : Xml} : named x = .getSchema ↔ x.tag = "get-schema" := by
  unfold named
  by_cases hschema : x.tag = "get-schema"
  · rw [if_pos hschema]
    exact iff_of_true rfl hschema
  · rw [if_neg hschema]
    refine iff_of_false ?_ hschema
    split_ifs
    · simp
    · split <;> simp

/-- The other operations are named in the namespace of NETCONF. -/
theorem named_eq_iff {x : Xml} {op : RpcOperation} (hop : op ≠ .unknown)
    (hschema : op ≠ .getSchema) : named x = op ↔ x.ns = NS_NC ∧ x.tag = op.name := by
  unfold named
  by_cases htag : x.tag = "get-schema"
  · rw [if_pos htag, htag]
    refine iff_of_false hschema.symm fun h => ?_
    cases op <;> first | exact absurd rfl hschema | exact absurd h.2 (by decide)
  · rw [if_neg htag]
    by_cases hns : x.ns = NS_NC
    · rw [if_neg (not_not.mpr hns)]
      split <;> cases op <;> simp_all [RpcOperation.name]
    · rw [if_pos hns]
      exact iff_of_false hop.symm fun h => hns h.1

/-- A search has a result exactly when an element is named after its operation. -/
theorem found_iff {root : Xml} {op : RpcOperation} (hop : op ≠ .unknown) :
    Found root op ↔ ∃ x ∈ root.descendants, named x = op := by
  by_cases hschema : op = .getSchema
  · subst hschema
    simp only [named_eq_getSchema_iff]
    exact Xml.select_ne_nil_iff
  · simp only [named_eq_iff hop hschema]
    cases op <;> first
      | exact Xml.selectNs_ne_nil_iff
      | exact absurd rfl hschema
      | exact absurd rfl hop

/-- A message is taken for the least operation that any of its elements is named after. -/
theorem isLeast_dispatched (root : Xml) :
    IsLeast (insert .unknown {op | ∃ x ∈ root.descendants, named x = op}) (dispatched root) := by
  obtain ⟨hfound, hearlier⟩ := dispatched_spec root
  constructor
  · by_cases hunknown : dispatched root = .unknown
    · exact .inl hunknown
    · exact .inr ((found_iff hunknown).mp hfound)
  · rintro op (rfl | hop)
    · exact RpcOperation.le_unknown _
    · by_cases hunknown : op = .unknown
      · rw [hunknown]
        exact RpcOperation.le_unknown _
      · by_contra hlt
        exact hearlier op (not_le.mp hlt) ((found_iff hunknown).mpr hop)

/-- A message with an operation is handled in its branch exactly when no element deeper in it is
named after an operation whose branch comes first. -/
theorem performs_named_iff {cfg : SfConfig} {session : Option Client}
    {attrs : List (String × String)} {text : Option String} {op : Xml} :
    Performs cfg session (rpc attrs text op) (named op) ↔
      ∀ x ∈ op.descendants, named op ≤ named x := by
  have hleast := isLeast_dispatched (rpc attrs text op)
  have hdescendants : (rpc attrs text op).descendants = op :: op.descendants := by
    show op :: (op.descendants ++ []) = op :: op.descendants
    rw [List.append_nil]
  rw [hdescendants] at hleast
  constructor
  · rintro ⟨htaken, -⟩ x hx
    rw [← htaken]
    exact hleast.2 (.inr ⟨x, List.mem_cons_of_mem _ hx, rfl⟩)
  · intro hfirst
    have htaken : dispatched (rpc attrs text op) = named op := by
      refine hleast.unique ⟨.inr ⟨op, List.mem_cons_self, rfl⟩, ?_⟩
      rintro op' (rfl | ⟨x, hx, rfl⟩)
      · exact RpcOperation.le_unknown _
      · obtain rfl | hx := List.mem_cons.mp hx
        · exact le_rfl
        · exact hfirst x hx
    refine ⟨htaken, ?_⟩
    rw [handleRpc_eq, htaken]

/-- An `edit-config` whose configuration has an element `get` is handled as a `get`. -/
theorem exists_not_performs :
    ¬ ∀ (cfg : SfConfig) (session : Option Client) (attrs : List (String × String))
      (text : Option String) (op : Xml),
      Performs cfg session (rpc attrs text op) (named op) := by
  intro hall
  let get : Xml := .node NS_NC "get" [] none []
  let config : Xml := .node NS_NC "config" [] none [get]
  let editConfig : Xml := .node NS_NC "edit-config" [] none [config]
  obtain ⟨htaken, -⟩ := hall plainSf none [("message-id", "101")] none editConfig
  exact absurd htaken (by decide)

end ControlPlane.Secure
