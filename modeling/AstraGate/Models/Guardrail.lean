import AstraGate.Models.Credit

namespace Guardrail

-- The column `scope`.
inductive Scope
  | input
  | output
  | both
deriving DecidableEq

end Guardrail

-- A row of `guardrail_keywords`.
structure GuardrailKeyword where
  id       : UUID
  keyword  : String
  scope    : Guardrail.Scope
  isActive : Bool
deriving DecidableEq
