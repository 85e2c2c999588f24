import CfProxy.Shared.Python

set_option autoImplicit false

namespace CfProxy.Envelopes

def recordNotFound : Nat := 81044
def forbidden : Nat := 9109
def internal : Nat := 1000
def routeNotFound : Nat := 7003
def tokenValid : Nat := 10000

-- A `JSONResponse`.
structure ClientResponse where
  status : Nat
  content : Json

def makeCfResponse (result : Json) (resultInfo : Option Json) : ClientResponse where
  status := 200
  content := .obj ([("success".toList, .bool true), ("errors".toList, .arr []),
    ("messages".toList, .arr []), ("result".toList, result)] ++
    match resultInfo with
    | some info => [("result_info".toList, info)]
    | none => [])

def makeCfError (status code : Nat) (message : Str) : ClientResponse where
  status := status
  content := .obj [("success".toList, .bool false),
    ("errors".toList, .arr [.obj [("code".toList, .num code), ("message".toList, .str message)]]),
    ("messages".toList, .arr []), ("result".toList, .null)]

-- `make_cf_response` with messages.
def makeCfResponseWith (messages : List Json) (result : Json) (resultInfo : Option Json) : ClientResponse where
  status := 200
  content := .obj ([("success".toList, .bool true), ("errors".toList, .arr []),
    ("messages".toList, .arr messages), ("result".toList, result)] ++
    match resultInfo with
    | some info => [("result_info".toList, info)]
    | none => [])

-- `make_cf_error` with whatever code an exception carries.
def makeCfErrorOf (status : Nat) (code : Json) (message : Str) : ClientResponse where
  status := status
  content := .obj [("success".toList, .bool false),
    ("errors".toList, .arr [.obj [("code".toList, code), ("message".toList, .str message)]]),
    ("messages".toList, .arr []), ("result".toList, .null)]

def makeResponse (status : Nat) (message : Str) (data : Json) : ClientResponse where
  status := status
  content := .obj [("status".toList, .num status), ("message".toList, .str message), ("data".toList, data)]

inductive CfEnvelope : Json → Prop
  | mk {fields : Json.Dict} (success : Bool) (errors messages : List Json) (result : Json)
      (succeeded : fields.lookup "success".toList = some (.bool success))
      (failed : fields.lookup "errors".toList = some (.arr errors))
      (told : fields.lookup "messages".toList = some (.arr messages))
      (answered : fields.lookup "result".toList = some result) : CfEnvelope (.obj fields)

inductive ManagementEnvelope : Json → Prop
  | mk {fields : Json.Dict} (status : Nat) (message : Str) (data : Json)
      (numbered : fields.lookup "status".toList = some (.num status))
      (told : fields.lookup "message".toList = some (.str message))
      (answered : fields.lookup "data".toList = some data) : ManagementEnvelope (.obj fields)

end CfProxy.Envelopes
