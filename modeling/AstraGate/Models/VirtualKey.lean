import AstraGate.Models.Credit

-- A row of `virtual_keys`.
structure VirtualKey where
  id            : UUID
  userId        : UUID
  name          : String
  description   : Option String
  keyHash       : String
  keyPrefix     : String
  isActive      : Bool
  rateLimitRpm  : Option Nat
  lastUsedAt    : Option Time
  totalRequests : Nat
  totalTokens   : Int
  revokedAt     : Option Time
deriving DecidableEq
