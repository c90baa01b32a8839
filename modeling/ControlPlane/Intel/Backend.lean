import ControlPlane.Intel.Models

/-!
# The enforcement backend

The model of `enforcement/ids_agent_proxy.py`: an intent becomes the JSON body that is posted to the
IDS agent, and the response becomes an `EnforcementResult`. A bare address is pushed as a `/32`.
-/

namespace ControlPlane.Intel

open Text

/-- `src` of `enforce`: a bare address gets the length 32. -/
def pushedSrc (srcIp : String) : String := if contains '/' srcIp then srcIp else srcIp ++ "/32"

/-- `dst` of `enforce`: as the source, and empty when there is none. -/
def pushedDst (dstIp : String) : String := if dstIp = "" then "" else pushedSrc dstIp

/-- A pushed address is never empty. -/
theorem pushedSrc_ne (s : String) : pushedSrc s ≠ "" := by
  unfold pushedSrc
  split_ifs with h
  · rintro rfl
    simp [contains] at h
  · intro h0
    have hlist := congrArg String.toList h0
    simp at hlist

/-- The body that `enforce` posts. -/
def proxyPayload (rule : PolicyRule) : List (String × Json) :=
  [("rule_id", .str rule.ruleId), ("action", .str rule.action.value),
    ("src_ip", .str (pushedSrc rule.srcIp)), ("priority", .int rule.priority),
    ("comment", .str rule.comment), ("ttl_seconds", .int rule.ttlSeconds)]
  ++ (if pushedDst rule.dstIp ≠ "" then [("dst_ip", .str (pushedDst rule.dstIp))] else [])
  ++ (if rule.dstPort ≠ 0 then [("dst_port", .int rule.dstPort)] else [])
  ++ (if rule.protocol ≠ "" then [("protocol", .str rule.protocol)] else [])

/-- A response of the IDS agent: its status and its body, an empty object when it has none. -/
structure ProxyResponse where
  /-- `resp.status_code`. -/
  statusCode : ℕ
  /-- `resp.json() if resp.content else {}`, which may raise. -/
  data : Except Exc Json

/-- The result of `enforce`, from the outcome of the post. -/
def proxyResult (py : Py) (rule : PolicyRule) (r : Except Exc ProxyResponse) :
    EnforcementResult :=
  match r with
  | .error e => { success := false, backend := "ids_agent_proxy", error := e.msg }
  | .ok resp =>
    match resp.data with
    | .error e => { success := false, backend := "ids_agent_proxy", error := e.msg }
    | .ok data =>
      if resp.statusCode < 400 then
        { success := true, ruleId := rule.ruleId, backend := "ids_agent_proxy", response := data }
      else
        { success := false, ruleId := rule.ruleId, backend := "ids_agent_proxy",
          error := "HTTP " ++ toString resp.statusCode ++ ": " ++ py.fmt data }

end ControlPlane.Intel
