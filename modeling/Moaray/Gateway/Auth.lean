import Moaray.Config.Runtime
import Moaray.Core.Error
import Moaray.Gateway.Sha256

/-!
# Inbound bearer authentication

A presented token is matched against the configured keys in order, by digest or by plaintext. The
request carries the id and the allowlist of the first key that matches.

* `parseBearer` — the token of an `Authorization` header, trimmed.
* `KeySecret.accepts` — whether a token opens a key; an empty plaintext opens for nobody.
* `findKey` — the entry a caller is authenticated as.
* `authenticate` — the id and the allowlist of that entry.

The token's digest is computed once, in hexadecimal, and compared with the configured digests as
text.  Comparisons look at every byte, which is a matter of timing and not of their result.
-/

namespace Moaray

/-- What a successful authentication yields, and all that the request knows of its key from then on.
-/
structure AuthContext where
  keyId : String
  allowModels : List String
  deriving DecidableEq, Repr

/-- Whether this caller may use `model`. -/
def AuthContext.allows (auth : AuthContext) (model : String) : Bool :=
  auth.allowModels.contains model

def sha256Hex (input : Bytes) : String := Sha256.digest input

/-- Equality that looks at every byte.  Only the lengths are compared first. -/
def ctEq (a b : Bytes) : Bool :=
  if a.length ≠ b.length then false
  else (a.zip b).foldl (fun diff xy => diff ||| (xy.1 ^^^ xy.2)) 0 == 0

/-- Whether a trimmed token, given with its digest, opens a key. -/
def KeySecret.accepts (presented presentedHash : String) : KeySecret → Bool
  | .plain p => !p.isEmpty && ctEq (utf8 p) (utf8 presented)
  | .sha256 h => ctEq (utf8 h) (utf8 presentedHash)

/-- The first key a presented token opens; an empty token opens none.  The token is trimmed, and its
digest is computed from the trimmed text. -/
def findKey (keys : List KeyConfig) (presented : String) : Option KeyConfig :=
  let presented := trim presented
  if presented.isEmpty then none
  else keys.find? fun k => k.secret.accepts presented (sha256Hex (utf8 presented))

/-- Authenticate a presented bearer token against the configured keys.  The caller takes its id and
allowlist from the key found. -/
def authenticate (keys : List KeyConfig) (presented : String) : Except Error AuthContext :=
  match findKey keys presented with
  | some k => .ok { keyId := k.id, allowModels := k.allowModels }
  | none => .error .invalidApiKey

def stripStart (start s : String) : Option String :=
  if start.toList.isPrefixOf s.toList then some (String.ofList (s.toList.drop start.length))
  else none

/-- Extract a bearer token from an `Authorization` header value.  The scheme is written in one of
two ways, and a blank token is no token. -/
def parseBearer (header : Option String) : Except Error String :=
  let token := do
    let h ← header
    let rest ← (stripStart "Bearer " h).orElse fun _ => stripStart "bearer " h
    let token := trim rest
    if token.isEmpty then none else some token
  match token with
  | some t => .ok t
  | none => .error .invalidApiKey

/-- The entry a token is matched with is one of the configured keys. -/
lemma findKey_mem {keys : List KeyConfig} {presented : String} {k : KeyConfig}
    (h : findKey keys presented = some k) : k ∈ keys := by
  unfold findKey at h
  simp only [] at h
  split at h
  · cases h
  · exact List.mem_of_find?_eq_some h

end Moaray
