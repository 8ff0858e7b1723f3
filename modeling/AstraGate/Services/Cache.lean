import AstraGate.Api.Theorems.Checkout
import AstraGate.Lib.Json.RoundTrip
import AstraGate.Lib.Redis.Server

-- What the services have in common in how they keep their data in Redis.
namespace Cache

-- Ids of 128 bits.
abbrev Id :=
  { id : UUID // id < 16 ^ 32 }

def Id.str (id : Id) : String :=
  Billing.uuidStr id

theorem Id.parseUuid_str (id : Id) : Billing.parseUuid id.str = some id.val :=
  Billing.parseUuid_uuidStr id.property

theorem Id.str_injective : Function.Injective Id.str := by
  intro id id' h
  have hp := id.parseUuid_str
  rw [h, id'.parseUuid_str] at hp
  exact Subtype.ext (Option.some.inj hp).symm

end Cache

namespace Json

-- `x[key]`, where it is a text.
def textItem? (key : String) (x : Json) : Option String :=
  match x.item key with
  | .ok (str s) => some s
  | _           => none

-- `bool(x[key])`
def truthyItem? (key : String) (x : Json) : Option Bool :=
  (x.item key).toOption.map truthy

-- The JSON in what a `GET` has returned: `none` if there was nothing, or nothing that can be read.
def ofReply (floatRepr : String → String) (reply : Except Redis.Error (Option String)) :
    Option Json :=
  reply.toOption.join.bind (loads floatRepr)

theorem ofReply_ok {floatRepr : String → String} {raw : Option String} :
    ofReply floatRepr (.ok raw) = raw.bind (loads floatRepr) :=
  rfl

end Json
