-- What `JSON.parse` returns. A number is known by the text that `String` makes of it.
inductive Js
  | null
  | bool (b : Bool)
  | number (text : String)
  | str (s : String)
  | array (xs : List Js)
  | object (fields : List (String × Js))

namespace Js

def truthy : Js → Bool
  | null        => false
  | bool b      => b
  | number text => text ≠ "0"
  | str s       => s ≠ ""
  | array _     => true
  | object _    => true

-- `value?.key` for a key that arrays and texts do not have: `none` if it is undefined.
def prop? (key : String) : Js → Option Js
  | object fields => fields.lookup key
  | _             => none

mutual

-- `String(value)`
def toStr : Js → String
  | null        => "null"
  | bool true   => "true"
  | bool false  => "false"
  | number text => text
  | str s       => s
  | array xs    => ",".intercalate (toStrs xs)
  | object _    => "[object Object]"

def toStrs : List Js → List String
  | []           => []
  | null :: xs   => "" :: toStrs xs
  | x :: xs      => toStr x :: toStrs xs

end
end Js
