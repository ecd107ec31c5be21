import Igit.Evm.Primitives

/-!
# The replication service

`replicate` of `cli/cmd/igit-replicationd/main.go` with what it calls: `authorize`, `parseToken`,
`kuboVerify`, `record` and `loadState`. A request holds the service's lock from its first look at
the used tickets to its reply, so requests take effect one after the other. Kubo is seen through
the set of CIDs it has pinned and through its answers to one request. The HMAC, the base64 and
JSON decoders and the digest are parameters.
-/

namespace Igit.Replication

open Fallible

/-- `claims`, the content of a ticket. -/
structure Claims where
  kind : Bytes
  subject : Bytes
  cid : Bytes
  owner : Bytes
  repo : Bytes
  ref : Bytes
  packSha256 : Bytes
  size : Int
  expiresAt : Int
  jti : Bytes
  deriving DecidableEq, Repr

/-- `replicationRequest`. -/
structure Request where
  cid : Bytes
  owner : Bytes
  repo : Bytes
  ref : Bytes
  packSha256 : Bytes
  size : Int
  expiresAt : Int
  deriving DecidableEq, Repr

/-- The configuration of a service, with the cryptography and the decoders it uses. -/
structure Config where
  hmac : Bytes → Bytes
  base64 : Bytes → Option Bytes
  unmarshal : Bytes → Option Claims
  sha256Hex : Bytes → Bytes
  maxBytes : Int

/-! ## Authorization -/

/-- The reasons for which a request is not authorized. -/
inductive Denial where
  | missingBearer
  | invalidAuthorization
  | invalidSignature
  | invalidClaims
  | invalidReplication
  | mismatch
  | tooLarge
  deriving DecidableEq, Repr

/-- The text of the error. -/
def Denial.message : Denial → String
  | missingBearer => "missing bearer authorization"
  | invalidAuthorization => "invalid authorization"
  | invalidSignature => "invalid authorization signature"
  | invalidClaims => "invalid authorization claims"
  | invalidReplication => "invalid replication authorization"
  | mismatch => "authorization does not match replication request"
  | tooLarge => "pack exceeds upload limit"

/-- The bytes of `"Bearer "`. -/
def bearer : Bytes := [0x42, 0x65, 0x61, 0x72, 0x65, 0x72, 0x20]

/-- The bytes of `"replication"`. -/
def replicationKind : Bytes :=
  [0x72, 0x65, 0x70, 0x6c, 0x69, 0x63, 0x61, 0x74, 0x69, 0x6f, 0x6e]

/-- The separator of the three parts of a token. -/
def dot : UInt8 := 0x2e

/-- `parseToken`. -/
def Config.parseToken (cfg : Config) (now : Int) (header : Bytes) : Except Denial Claims := do
  revertIf (bearer.isPrefixOf header = false) .missingBearer
  match (header.drop bearer.length).splitOn dot with
  | [head, payload, signature] => do
      match cfg.base64 signature with
      | none => throw .invalidSignature
      | some sig => revertIf (sig ≠ cfg.hmac (head ++ dot :: payload)) .invalidSignature
      match (cfg.base64 payload).map cfg.unmarshal with
      | none | some none => throw .invalidClaims
      | some (some cl) => do
          revertIf (cl.subject = [] ∨ cl.expiresAt ≤ now) .invalidClaims
          pure cl
  | _ => throw .invalidAuthorization

/-- `authorize`. -/
def Config.authorize (cfg : Config) (now : Int) (header : Bytes) (req : Request) :
    Except Denial Claims := do
  let cl ← cfg.parseToken now header
  revertIf (cl.kind ≠ replicationKind ∨ cl.jti = []) .invalidReplication
  revertIf (req.cid ≠ cl.cid ∨ req.owner ≠ cl.owner ∨ req.repo ≠ cl.repo ∨ req.ref ≠ cl.ref ∨
    req.packSha256 ≠ cl.packSha256 ∨ req.size ≠ cl.size) .mismatch
  revertIf (req.size ≤ 0 ∨ cfg.maxBytes < req.size) .tooLarge
  pure cl

/-! ## The state file -/

def tab : UInt8 := 0x09
def newline : UInt8 := 0x0a

/-- `%d`. -/
def decimal (n : Int) : Bytes :=
  let digits := (Nat.digits 10 n.natAbs).reverse.map fun digit => UInt8.ofNat (0x30 + digit)
  (if n < 0 then [0x2d] else []) ++ if n = 0 then [0x30] else digits

/-- The line `record` writes for a use of a ticket, without its newline. -/
def recordLine (cl : Claims) (req : Request) : Bytes :=
  cl.jti ++ tab :: (req.cid ++ tab :: (decimal cl.expiresAt ++ tab :: (cl.subject ++ tab ::
    (req.owner ++ tab :: (req.repo ++ tab :: (req.ref ++ tab :: decimal req.size))))))

/-- The tickets used, with the CID of each. -/
abbrev Used := Bytes → Option Bytes

/-- The ticket and the CID of a line, if it has two fields. -/
def lineEntry (line : Bytes) : Option (Bytes × Bytes) :=
  match line.splitOn tab with
  | jti :: cid :: _ => some (jti, cid)
  | _ => none

/-- One round of the loop of `loadState`. -/
def loadLine (used : Used) (line : Bytes) : Used :=
  match lineEntry line with
  | some (jti, cid) => Function.update used jti (some cid)
  | none => used

/-- `loadState`. A missing file holds nothing. -/
def loadState : Option Bytes → Used
  | none => fun _ => none
  | some data => (data.splitOn newline).foldl loadLine fun _ => none

/-! ## The service and Kubo -/

/-- The service's map of used tickets, its state file, and the CIDs Kubo has pinned. -/
structure World where
  used : Used
  file : Option Bytes
  pinned : Bytes → Bool

namespace World

/-- Kubo pins a CID. -/
def pin (w : World) (cid : Bytes) : World := { w with pinned := Function.update w.pinned cid true }

/-- Kubo unpins a CID. -/
def unpin (w : World) (cid : Bytes) : World :=
  { w with pinned := Function.update w.pinned cid false }

/-- `record` when the file can be written. -/
def record (w : World) (cl : Claims) (req : Request) : World :=
  { w with
    file := some (w.file.getD [] ++ recordLine cl req ++ [newline])
    used := Function.update w.used cl.jti (some req.cid) }

/-- A new process reads the state file. -/
def restart (w : World) : World := { w with used := loadState w.file }

end World

/-- Kubo's answer to `pin/add`. A request that fails may have pinned all the same. -/
inductive PinAnswer where
  | done
  | failed (pinned : Bool)
  deriving DecidableEq, Repr

/-- What happens outside the service while it handles a request: Kubo's answers to `pin/add` and
`cat`, where `none` is any failure, whether a `pin/rm` takes effect, and whether the state file can
be written. -/
structure Answers where
  pinAdd : PinAnswer
  cat : Option Bytes
  pinRm : Bool
  stateWrite : Bool
  deriving DecidableEq, Repr

/-- `kuboVerify`: the digest and the number of the bytes read, at most one more than declared. -/
def Config.kuboVerify (cfg : Config) (cat : Option Bytes) (want : Int) : Option (Bytes × Int) :=
  cat.map fun content =>
    let read := content.take (want + 1).toNat
    (cfg.sha256Hex read, read.length)

/-- The content Kubo returns has the declared size and digest. -/
def Config.verified (cfg : Config) (cat : Option Bytes) (req : Request) : Bool :=
  match cfg.kuboVerify cat req.size with
  | none => false
  | some (hash, size) => decide (size = req.size) && decide (hash = req.packSha256)

/-- A reply of the service. -/
inductive Reply where
  | pinned (status : Nat) (cid : Bytes) (expiresAt : Int) (idempotent : Bool)
  | error (status : Nat) (message : String)
  deriving DecidableEq, Repr

/-- An HTTP request. The body is missing when it is not the JSON of a request. -/
structure Http where
  post : Bool
  authorization : Bytes
  body : Option Request
  deriving DecidableEq, Repr

namespace World

variable (cfg : Config) (w : World)

/-- `replicate` from the call of `pin/add` on, for a ticket that has not been used. -/
def pinAndRecord (cl : Claims) (req : Request) (answers : Answers) : World × Reply :=
  match answers.pinAdd with
  | .failed pinned => (if pinned then w.pin req.cid else w, .error 502 "US pin failed")
  | .done =>
      let added := w.pin req.cid
      if cfg.verified answers.cat req then
        if answers.stateWrite then
          (added.record cl req, .pinned 201 req.cid cl.expiresAt false)
        else (added, .error 500 "pin recorded but state write failed")
      else
        (if answers.pinRm then added.unpin req.cid else added,
          .error 502 "pack verification failed")

/-- `replicate`. The second look at the used tickets in the source is made under the same lock and
sees what the first one saw. -/
def replicate (now : Int) (http : Http) (answers : Answers) : World × Reply :=
  if http.post = false then (w, .error 405 "method not allowed") else
  match http.body with
  | none => (w, .error 400 "invalid JSON")
  | some req =>
      match cfg.authorize now http.authorization req with
      | .error denial => (w, .error 401 denial.message)
      | .ok cl =>
          match w.used cl.jti with
          | some existing =>
              if existing = req.cid then (w, .pinned 200 req.cid cl.expiresAt true)
              else (w, .error 409 "authorization already used")
          | none => w.pinAndRecord cfg cl req answers

end World

end Igit.Replication
