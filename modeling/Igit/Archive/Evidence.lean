import Igit.Library.Numerals
import Igit.Library.Runes
import Igit.Library.Unordered
import Igit.Migration.Schema

/-!
# The evidence of the archive

What `cli/internal/archivev1/inventory.go` reads: the pages of a `tx_search` answer and the blocks
they are checked against. `decodeTxSearch` goes through the pages and gives the transactions in the
order of the document, and `eventAttributes` makes a map of an event's attributes, whose keys and
values older nodes write in base64.

A JSON document stands here as what the decoder makes of it. A field of type `json.RawMessage` keeps
its text, since the source reads that text itself.
-/

namespace Igit.Archive

open Fallible
open Migration (ascii)

/-- A SHA-256 digest. -/
abbrev Digest := { bytes : Bytes // bytes.length = 32 }

/-- What the inventory takes from its libraries: `strings.TrimSpace`, `strings.ToUpper` and
`sha256.Sum256`. -/
structure Env where
  trimSpace : Bytes → Bytes
  toUpper : Bytes → Bytes
  sha256 : Bytes → Digest

/-! ## Texts -/

/-- A hexadecimal digit in lower case. -/
def hexDigit (n : Nat) : UInt8 := if n < 10 then UInt8.ofNat (0x30 + n) else UInt8.ofNat (0x57 + n)

/-- `hex.EncodeToString`. -/
def encodeHex (bytes : Bytes) : Bytes :=
  bytes.flatMap fun b => [hexDigit (b.toNat / 16), hexDigit (b.toNat % 16)]

/-- `strings.ToLower` of a hash, which has ASCII letters only. -/
def lowerHash (text : Bytes) : Bytes :=
  text.map fun c => if 0x41 ≤ c && c ≤ 0x5a then c + 0x20 else c

/-- A letter of the base64 alphabet. -/
def base64Value (c : UInt8) : Option Nat :=
  if 0x41 ≤ c && c ≤ 0x5a then some (c.toNat - 0x41)
  else if 0x61 ≤ c && c ≤ 0x7a then some (c.toNat - 0x61 + 26)
  else if 0x30 ≤ c && c ≤ 0x39 then some (c.toNat - 0x30 + 52)
  else if c = 0x2b then some 62
  else if c = 0x2f then some 63
  else none

/-- The three bytes of four letters. -/
def base64Group (a b c d : Nat) : Bytes :=
  let group := ((a * 64 + b) * 64 + c) * 64 + d
  [UInt8.ofNat (group / 65536), UInt8.ofNat (group / 256), UInt8.ofNat group]

/-- Four letters at a time; padding only stands in the last group. -/
def decodeGroups : Bytes → Option Bytes
  | [] => some []
  | a :: b :: c :: d :: rest =>
      if d = 0x3d ∧ rest = [] then
        if c = 0x3d then do
          let group := base64Group (← base64Value a) (← base64Value b) 0 0
          some (group.take 1)
        else do
          let group := base64Group (← base64Value a) (← base64Value b) (← base64Value c) 0
          some (group.take 2)
      else do
        let group :=
          base64Group (← base64Value a) (← base64Value b) (← base64Value c) (← base64Value d)
        let later ← decodeGroups rest
        some (group ++ later)
  | _ => none

/-- `base64.StdEncoding.DecodeString`, which skips line ends. -/
def decodeBase64 (text : Bytes) : Option Bytes :=
  decodeGroups (text.filter fun c => c ≠ 0x0a ∧ c ≠ 0x0d)

/-- `utf8.Valid`. -/
def utf8Valid (text : Bytes) : Bool :=
  (Runes.runes text).all fun rune => decide (rune ≠ (Runes.runeError, 1))

/-- `strconv.ParseUint` of a decimal text. -/
def parseUint64 (text : Bytes) : Option UInt64 := do
  let n ← parseDecimal text
  if n < UInt64.size then some (UInt64.ofNat n) else none

/-- `rawUint64`: a JSON number, or one in quotes. -/
def Env.rawUint64 (env : Env) (raw : Bytes) : Option UInt64 :=
  let value := env.trimSpace raw
  if 2 ≤ value.length ∧ value.head? = some 0x22 ∧ value.getLast? = some 0x22 then
    parseUint64 (value.drop 1).dropLast
  else parseUint64 value

/-- `hasJSONValue`. -/
def Env.hasJSONValue (env : Env) (raw : Bytes) : Bool :=
  decide (env.trimSpace raw ≠ [] ∧ env.trimSpace raw ≠ ascii "null")

/-- `validateUpperHash`. -/
def Env.validUpperHash (env : Env) (value : Bytes) : Bool :=
  value.length == 64 && env.toUpper value == value && value.all isHexByte

/-! ## Events -/

/-- `abciAttribute`. -/
structure AbciAttribute where
  key : Bytes
  value : Bytes
  deriving DecidableEq, Repr

/-- `abciEvent`. -/
structure AbciEvent where
  type : Bytes
  attributes : List AbciAttribute
  deriving DecidableEq, Repr

/-- The attributes of an event, as the replay reads them. -/
abbrev Attributes := HashMap Bytes Bytes

/-- The value of an attribute, empty when there is none. -/
def Attributes.get (attributes : Attributes) (key : String) : Bytes :=
  HashMap.getD attributes (ascii key) []

/-- `decodeAttributeKey`: the key, and whether it stood in base64. -/
def decodeAttributeKey (value : Bytes) : Bytes × Bool :=
  match decodeBase64 value with
  | some decoded =>
      -- only printable text counts as a coded key
      if decoded ≠ [] ∧ utf8Valid decoded ∧
          (Runes.runes decoded).all fun rune => decide (0x20 ≤ rune.1 ∧ rune.1 ≠ 0x7f) then
        (decoded, true)
      else (value, false)
  | none => (value, false)

/-- The key and the value an attribute stands for. -/
def decodeAttribute (item : AbciAttribute) : Bytes × Bytes :=
  let (key, encoded) := decodeAttributeKey item.key
  if encoded then
    match decodeBase64 item.value with
    | some decoded => if utf8Valid decoded then (key, decoded) else (key, item.value)
    | none => (key, item.value)
  else (key, item.value)

/-- `eventAttributes`. A later attribute replaces an earlier one with its key. -/
def eventAttributes (event : AbciEvent) : Attributes :=
  event.attributes.foldl (fun attributes item =>
    attributes.insert (decodeAttribute item).1 (decodeAttribute item).2) ∅

/-- `isContractEvent`. -/
def isContractEvent (type : Bytes) (attributes : Attributes) (contract : Bytes) : Bool :=
  if type ≠ ascii "wasm" ∧ ¬ (ascii "wasm-").isPrefixOf type then false
  else
    let address := attributes.get "_contract_address"
    decide ((if address = [] then attributes.get "contract_address" else address) = contract)

/-- `transactionSender`: the first sender that a message event names. -/
def transactionSender (events : List AbciEvent) : Bytes :=
  let senders := (events.filter fun event => event.type = ascii "message").map fun event =>
    (eventAttributes event).get "sender"
  (senders.find? fun sender => sender ≠ []).getD []

/-! ## The pages -/

/-- `txSearchResultData`. -/
structure TxSearchResultData where
  code : Option UInt32
  events : List AbciEvent
  deriving DecidableEq, Repr

/-- `txSearchTx`. -/
structure TxSearchTx where
  hash : Bytes
  height : Bytes
  index : Bytes
  tx : Bytes
  txResult : Option TxSearchResultData
  deriving DecidableEq, Repr

/-- `txSearchResult`. -/
structure TxSearchResult where
  query : Bytes
  totalCount : Bytes
  txs : List TxSearchTx
  deriving DecidableEq, Repr

/-- `txSearchEnvelope`: one page. -/
structure TxSearchEnvelope where
  error : Bytes
  result : Option TxSearchResult
  deriving DecidableEq, Repr

/-- The answer to a search: the document, and the pages in it. -/
structure TxSearchDocument where
  raw : Bytes
  pages : List TxSearchEnvelope
  deriving DecidableEq, Repr

/-- `orderedTx`: a transaction that was checked, which has a result and a code. -/
structure OrderedTx where
  hash : Bytes
  height : UInt64
  index : UInt32
  code : UInt32
  events : List AbciEvent
  deriving DecidableEq, Repr

/-- The errors of `decodeTxSearch`. -/
inductive SearchFailure where
  | noPages
  | rpcError (page : Nat)
  | noResult (page : Nat)
  | query (page : Nat) (query : Bytes)
  | totalCount (page : Nat)
  | countMismatch (page : Nat) (count expected : UInt64)
  | queryMismatch (page : Nat)
  | height (hash : Bytes)
  | hash (hash : Bytes)
  | noTxResult (hash : Bytes)
  | noCode (hash : Bytes)
  | index (hash : Bytes)
  | transactionBytes (hash : Bytes)
  | hashMismatch (hash : Bytes)
  deriving DecidableEq, Repr

/-- `expectedTxSearchQuery`. -/
def expectedTxSearchQuery (contract : Bytes) (cutoverHeight : UInt64) : Bytes :=
  ascii "wasm._contract_address='" ++ contract ++ ascii "' AND tx.height<=" ++
    decimal cutoverHeight.toNat

namespace Env

variable (env : Env)

/-- The checks on one transaction of a page. -/
def decodeTx (transaction : TxSearchTx) : Except SearchFailure OrderedTx := do
  let height ← demand (env.rawUint64 transaction.height) (.height transaction.hash)
  revertIf (height = 0) (.height transaction.hash)
  let hash := env.toUpper (env.trimSpace transaction.hash)
  revertIf (env.validUpperHash hash = false) (.hash hash)
  let txResult ← demand transaction.txResult (.noTxResult hash)
  let code ← demand txResult.code (.noCode hash)
  let index ← demand (env.rawUint64 transaction.index) (.index hash)
  revertIf (index.toNat > 4294967295) (.index hash)
  let encodedTx ← demand (decodeBase64 transaction.tx) (.transactionBytes hash)
  revertIf (encodedTx = []) (.transactionBytes hash)
  revertIf (encodeHex (env.sha256 encodedTx).1 ≠ lowerHash hash) (.hashMismatch hash)
  pure ⟨hash, height, index.toUInt32, code, txResult.events⟩

/-- What `decodeTxSearch` has read: the transactions, the count and the query of the first page. -/
structure Pages where
  transactions : List OrderedTx
  totalCount : UInt64
  query : Bytes
  deriving DecidableEq, Repr

/-- One page of `decodeTxSearch`. -/
def decodePage (contract : Bytes) (cutoverHeight : UInt64) (sofar : Pages)
    (page : TxSearchEnvelope × Nat) : Except SearchFailure Pages := do
  revertIf (env.hasJSONValue page.1.error) (.rpcError page.2)
  let result ← demand page.1.result (.noResult page.2)
  let query := env.trimSpace result.query
  revertIf (query ≠ expectedTxSearchQuery contract cutoverHeight) (.query page.2 query)
  let count ← demand (env.rawUint64 result.totalCount) (.totalCount page.2)
  let first : Pages := if page.2 = 0 then { sofar with totalCount := count, query := query } else sofar
  revertIf (count ≠ first.totalCount) (.countMismatch page.2 count first.totalCount)
  revertIf (query ≠ first.query) (.queryMismatch page.2)
  let transactions ← result.txs.mapM env.decodeTx
  pure { first with transactions := first.transactions ++ transactions }

/-- `decodeTxSearch`. -/
def decodeTxSearch (pages : List TxSearchEnvelope) (contract : Bytes) (cutoverHeight : UInt64) :
    Except SearchFailure Pages := do
  revertIf (pages = []) .noPages
  pages.zipIdx.foldlM (env.decodePage contract cutoverHeight) ⟨[], 0, []⟩

end Env

/-! ## The blocks -/

/-- `sourceBlock`. -/
structure SourceBlock where
  chainId : Bytes
  height : UInt64
  hash : Bytes
  timestamp : UInt64
  txHashes : List Bytes
  deriving DecidableEq, Repr

/-- `BlockEvidence`. -/
structure BlockEvidence where
  sha256 : Bytes
  blocks : HashMap UInt64 SourceBlock
  deriving DecidableEq

end Igit.Archive
