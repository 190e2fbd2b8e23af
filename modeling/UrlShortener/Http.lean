import UrlShortener.Bytes

/-!
# The HTTP messages the handlers see

The parts of proxygen's `HTTPMessage`, `HTTPHeaders` and `ResponseBuilder` that
the request path uses. Header names compare without regard to letter case.
-/

namespace UrlShortener
set_option autoImplicit false

/-- `proxygen::HTTPMethod`. -/
inductive HTTPMethod where
  | get | post | options | delete | head | connect | connectUdp | put | trace | patch | sub | pub
  | unsub
  deriving DecidableEq, Repr

/-- A request from the peer `clientAddress`. A method proxygen does not know is
`none`. -/
structure HTTPMessage (IP : Type) where
  method : Option HTTPMethod
  path : Bytes
  headers : List (Bytes × Bytes)
  clientAddress : IP

/-- ASCII lower case. -/
def lowerByte (c : UInt8) : UInt8 := if 0x41 ≤ c ∧ c ≤ 0x5a then c + 0x20 else c

/-- Equality of header names. -/
def sameName (a b : Bytes) : Bool := a.map lowerByte == b.map lowerByte

/-- The values of the header `name`, one for each occurrence. -/
def HTTPMessage.values {IP : Type} (msg : HTTPMessage IP) (name : Bytes) : List Bytes :=
  (msg.headers.filter fun h => sameName h.1 name).map Prod.snd

/-- `HTTPHeaders::exists`. -/
def HTTPMessage.headerExists {IP : Type} (msg : HTTPMessage IP) (name : Bytes) : Bool :=
  !(msg.values name).isEmpty

/-- `HTTPHeaders::getSingleOrEmpty`: the empty string unless there is exactly one
value. -/
def HTTPMessage.getSingleOrEmpty {IP : Type} (msg : HTTPMessage IP) (name : Bytes) : Bytes :=
  match msg.values name with
  | [v] => v
  | _ => []

/-- What a handler sends with `sendWithEOM`. -/
structure Response where
  status : Nat
  reason : Bytes
  headers : List (Bytes × Bytes) := []
  body : Bytes := []
  deriving DecidableEq, Repr

theorem getSingleOrEmpty_nonempty {IP : Type} {msg : HTTPMessage IP} {name : Bytes}
    (h : msg.getSingleOrEmpty name ≠ []) : msg.values name = [msg.getSingleOrEmpty name] := by
  unfold HTTPMessage.getSingleOrEmpty at h ⊢
  split at h
  · rename_i v hv
    simp only [hv]
  · exact absurd rfl h

end UrlShortener
