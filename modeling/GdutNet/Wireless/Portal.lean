import GdutNet.Config

/-!
# Portal replies

The reply half of `wireless/portal.rs`. `serde_json` is third-party code, so
reading and printing JSON are a parameter, the class `SerdeJson`; everything
the repository itself does with a reply is here.
-/

namespace GdutNet

/-! ## JSON values -/

/-- `serde_json::Number`: a `u64`, a negative `i64` (by magnitude) or a
double, by its bits. -/
inductive JsonNumber where
  | posInt (n : ℕ)
  | negInt (n : ℕ)
  | float (bits : UInt64)

inductive JsonValue where
  | null
  | bool (b : Bool)
  | number (n : JsonNumber)
  | string (s : String)
  | array (items : List JsonValue)
  | object (fields : List (String × JsonValue))

namespace JsonValue

def get (v : JsonValue) (key : String) : Option JsonValue :=
  match v with
  | .object fields => (fields.find? (·.1 = key)).map (·.2)
  | _ => none

def asStr : JsonValue → Option String
  | .string s => some s
  | _ => none

def asU64 : JsonValue → Option ℕ
  | .number (.posInt n) => some n
  | _ => none

end JsonValue

/-- `serde_json::from_str` and `Value::to_string`. -/
class SerdeJson where
  fromStr : String → Option JsonValue
  toText : JsonValue → String

/-! ## Replies -/

/-- Whole authentication flow: query, confirmation, settle and login. -/
def loginTimeout : Duration := .fromSecs 32

inductive PortalResult where
  | success
  | alreadyOnline
  | failure (msg : String)
  | malformed
deriving DecidableEq, Repr

/-- Position of the last character satisfying `p`. -/
def rfindIdx? (p : Char → Bool) (cs : List Char) : Option ℕ :=
  (cs.reverse.findIdx? p).map (fun i => cs.length - 1 - i)

/-- What stands between the first `(` and the last `)`; without such a pair,
the trimmed body. -/
def extractJson (body : String) : String :=
  let cs := body.toList
  match cs.findIdx? (· = '('), rfindIdx? (· = ')') cs with
  | some a, some b =>
      if a < b then String.ofList ((cs.take b).drop (a + 1))
      else String.ofList (trim cs)
  | _, _ => String.ofList (trim cs)

/-- `ret_code`, a number or a numeric string. -/
def retCode (v : JsonValue) : Option ℕ := do
  let r ← v.get "ret_code"
  match r.asU64 with
  | some n => some n
  | none => do parseU64 (← r.asStr).toList

section Reply

variable [SerdeJson]

def parsePortalReply (body : String) : PortalResult :=
  match SerdeJson.fromStr (extractJson body) with
  | none => .malformed
  | some v =>
      let result := (v.get "result").map
        (fun r => r.asStr.getD (SerdeJson.toText r))
      match result with
      | none => .malformed
      | some r =>
          if r = "1" then .success
          else if r = "0" && retCode v = some 2 then .alreadyOnline
          else .failure (((v.get "msg").bind JsonValue.asStr).getD "no msg")

end Reply

/-- `serde_json` on the one reply that the example runs receive. -/
@[reducible] def replyJson : SerdeJson where
  fromStr text :=
    if text = "\x7b\"result\":\"1\"\x7d" then some (.object [("result", .string "1")])
    else none
  toText _ := ""

example : @parsePortalReply replyJson "dr1004(\x7b\"result\":\"1\"\x7d)" = .success := by
  decide
example : extractJson "dr1004([1])" = "[1]" := by decide
example : extractJson " x ) ( " = "x ) (" := by decide

end GdutNet
