import Igit.Contracts.World

/-!
# The clients' check of a suite

Before a client trusts a suite it reads it back from the chain: `VerifySuite` of
`cli/internal/chain/suite_directory.go` and `verifySuiteNow` of `web/src/lib/transport.ts`. A `Node`
is what the RPC endpoint answers at one block. The answers are the ABI values of the view functions,
and `none` is an error of the transport, of the call or of the decoder. The reads the web client makes
at the same time are made one after the other here, in the order of the source.
-/

namespace Igit.Client

open Fallible

/-! ## The node -/

/-- The view functions the clients call. -/
inductive View where
  | suiteVersion
  | configuredChainId
  | state
  | snapshotRoot
  | bootstrapCoordinator
  | bootstrapCoordinatorCodeHash
  | registeredModuleCount
  | moduleAddress (id : ModuleId)
  | moduleCodeHash (id : ModuleId)
  | verifyModule (id : ModuleId)
  | suiteDirectory
  | moduleId
  deriving DecidableEq, Repr

/-- A decoded value. Module ids are the `bytes32` words that have a type of their own. -/
inductive Value where
  | uint8 (value : Nat)
  | uint64 (value : Nat)
  | uint256 (value : Nat)
  | address (value : Address)
  | bytes32 (value : Bytes32)
  | id (value : ModuleId)
  | bool (value : Bool)
  deriving DecidableEq, Repr

/-- What an endpoint answers at one block. -/
structure Node where
  chainId : Option Nat
  blockNumber : Option Nat
  code : Address → Option Bytes
  call : Address → View → Option Value

namespace Node

variable (node : Node) (address : Address) (view : View)

/-- `suiteUint8Call`. -/
def uint8Call : Option Nat :=
  match node.call address view with
  | some (.uint8 value) => some value
  | _ => none

/-- `suiteUint64Call`. -/
def uint64Call : Option Nat :=
  match node.call address view with
  | some (.uint64 value) => some value
  | _ => none

/-- `suiteBigIntCall`. -/
def bigIntCall : Option Nat :=
  match node.call address view with
  | some (.uint256 value) => some value
  | _ => none

/-- `suiteAddressCall`. -/
def addressCall : Option Address :=
  match node.call address view with
  | some (.address value) => some value
  | _ => none

/-- `suiteHashCall`. -/
def hashCall : Option Bytes32 :=
  match node.call address view with
  | some (.bytes32 value) => some value
  | _ => none

/-- `suiteHashCall` on a module id. -/
def idCall : Option ModuleId :=
  match node.call address view with
  | some (.id value) => some value
  | _ => none

/-- A `bool` read by the web client. -/
def boolCall : Option Bool :=
  match node.call address view with
  | some (.bool value) => some value
  | _ => none

end Node

/-- An answer that has to be there. -/
def fetch {α ε : Type} (reason : ε) : Option α → Except ε α
  | some value => pure value
  | none => throw reason

@[simp] theorem fetch_eq_ok {α ε : Type} {reason : ε} {answer : Option α} {value : α} :
    fetch reason answer = .ok value ↔ answer = some value := by
  cases answer <;> simp [fetch]

/-- A number the client holds in 64 bits. -/
def fits64 (answer : Option Nat) : Option Nat := answer.filter (· ≤ uint64Max)

/-! ## The command line -/

/-- The checks of `VerifySuite`, by the names its errors give them. -/
inductive Check where
  | directoryAddress
  | rpcChainId
  | profileChainId
  | snapshotBlock
  | directoryCode
  | suiteVersion
  | configuredChainId
  | directoryState
  | snapshotRoot
  | bootstrapCoordinator
  | coordinatorCode
  | coordinatorCodeHash
  | coordinatorDirectoryBinding
  | coordinatorSnapshotBinding
  | moduleAddress
  | moduleCodeHash
  | moduleCode
  | directoryBinding
  | coordinatorBinding
  | moduleIdBinding
  deriving DecidableEq, Repr

/-- `SuiteVerificationError`. -/
structure SuiteVerificationError where
  check : Check
  module : Option Module
  deriving DecidableEq, Repr

/-- `SuiteModuleInfo`. -/
structure SuiteModuleInfo where
  module : Module
  address : Address
  codeHash : Bytes32
  deriving DecidableEq, Repr

/-- `SuiteInfo`. Its state is always active. -/
structure SuiteInfo where
  directory : Address
  version : Nat
  chainId : Nat
  snapshotRoot : Bytes32
  bootstrapCoordinator : Address
  block : Nat
  modules : List SuiteModuleInfo
  deriving DecidableEq, Repr

def supportedSuiteVersion : Nat := 3

section CommandLine

variable (keccak : Keccak) (node : Node)

/-- One round of the module loop of `VerifySuite`. -/
def verifySuiteModule (directory coordinator : Address) (required : Module) :
    Except SuiteVerificationError SuiteModuleInfo := do
  let address ← fetch ⟨.moduleAddress, some required⟩
    (node.addressCall directory (.moduleAddress (.suite required)))
  revertIf (address = 0) ⟨.moduleAddress, some required⟩
  let expectedHash ← fetch ⟨.moduleCodeHash, some required⟩
    (node.hashCall directory (.moduleCodeHash (.suite required)))
  let code ← fetch ⟨.moduleCode, some required⟩ (node.code address)
  revertIf (code.length = 0) ⟨.moduleCode, some required⟩
  revertIf (keccak.ofBytes code ≠ expectedHash) ⟨.moduleCodeHash, some required⟩
  let boundDirectory ← fetch ⟨.directoryBinding, some required⟩
    (node.addressCall address .suiteDirectory)
  let boundCoordinator ← fetch ⟨.coordinatorBinding, some required⟩
    (node.addressCall address .bootstrapCoordinator)
  let boundId ← fetch ⟨.moduleIdBinding, some required⟩ (node.idCall address .moduleId)
  revertIf (boundDirectory ≠ directory) ⟨.directoryBinding, some required⟩
  revertIf (boundCoordinator ≠ coordinator) ⟨.coordinatorBinding, some required⟩
  revertIf (boundId ≠ .suite required) ⟨.moduleIdBinding, some required⟩
  pure ⟨required, address, expectedHash⟩

/-- `VerifySuite`. The address is `none` when the text of the profile is not one, and a profile
without a chain id has the number zero. -/
def verifySuite (directoryAddress : Option Address) (expectedChainId : Nat) :
    Except SuiteVerificationError SuiteInfo := do
  let directory ← fetch ⟨.directoryAddress, none⟩ directoryAddress
  let chainId ← fetch ⟨.rpcChainId, none⟩ (fits64 node.chainId)
  revertIf (expectedChainId ≠ 0 ∧ chainId ≠ expectedChainId) ⟨.profileChainId, none⟩
  let block ← fetch ⟨.snapshotBlock, none⟩ (fits64 node.blockNumber)
  let directoryCode ← fetch ⟨.directoryCode, none⟩ (node.code directory)
  revertIf (directoryCode.length = 0) ⟨.directoryCode, none⟩
  let version ← fetch ⟨.suiteVersion, none⟩ (node.uint64Call directory .suiteVersion)
  revertIf (version ≠ supportedSuiteVersion) ⟨.suiteVersion, none⟩
  let configured ← fetch ⟨.configuredChainId, none⟩ (node.bigIntCall directory .configuredChainId)
  revertIf (configured > uint64Max ∨ configured ≠ chainId) ⟨.configuredChainId, none⟩
  let state ← fetch ⟨.directoryState, none⟩ (node.uint8Call directory .state)
  revertIf (state ≠ 1) ⟨.directoryState, none⟩
  let snapshotRoot ← fetch ⟨.snapshotRoot, none⟩ (node.hashCall directory .snapshotRoot)
  revertIf (snapshotRoot = 0) ⟨.snapshotRoot, none⟩
  let coordinator ← fetch ⟨.bootstrapCoordinator, none⟩
    (node.addressCall directory .bootstrapCoordinator)
  revertIf (coordinator = 0) ⟨.bootstrapCoordinator, none⟩
  let coordinatorCode ← fetch ⟨.coordinatorCode, none⟩ (node.code coordinator)
  revertIf (coordinatorCode.length = 0) ⟨.coordinatorCode, none⟩
  let coordinatorHash ← fetch ⟨.coordinatorCodeHash, none⟩
    (node.hashCall directory .bootstrapCoordinatorCodeHash)
  revertIf (keccak.ofBytes coordinatorCode ≠ coordinatorHash) ⟨.coordinatorCodeHash, none⟩
  let boundDirectory ← fetch ⟨.coordinatorDirectoryBinding, none⟩
    (node.addressCall coordinator .suiteDirectory)
  revertIf (boundDirectory ≠ directory) ⟨.coordinatorDirectoryBinding, none⟩
  let boundSnapshotRoot ← fetch ⟨.coordinatorSnapshotBinding, none⟩
    (node.hashCall coordinator .snapshotRoot)
  revertIf (boundSnapshotRoot ≠ snapshotRoot) ⟨.coordinatorSnapshotBinding, none⟩
  let modules ← requiredModules.mapM (verifySuiteModule keccak node directory coordinator)
  pure ⟨directory, version, chainId, snapshotRoot, coordinator, block, modules⟩

end CommandLine

/-! ## The web client -/

/-- The errors of `verifySuiteNow`: the directory of the profile is not an address, a request failed,
or a check did. -/
inductive WebError where
  | configuration
  | request
  | chainId (reported : Nat)
  | directoryCode
  | inactive
  | version (reported : Nat)
  | configuredChainId
  | moduleCount (reported : Nat)
  | coordinator
  | coordinatorCode
  | moduleAddress (key : Module)
  | moduleRejected (key : Module)
  | moduleCode (key : Module)
  | directoryBinding (key : Module)
  | coordinatorBinding (key : Module)
  | idBinding (key : Module)
  deriving DecidableEq, Repr

/-- The parts of `AppConfig` that `verifySuiteNow` reads. -/
structure AppConfig where
  suiteDirectory : Option Address
  evmChainId : Nat
  deriving DecidableEq, Repr

/-- `SuiteBinding`, with one entry a module. -/
structure SuiteBinding where
  directory : Address
  coordinator : Address
  snapshotRoot : Bytes32
  block : Nat
  modules : List (Module × Address × Bytes32)
  deriving DecidableEq, Repr

/-- `SUITE_VERSION`. -/
def suiteVersion : Nat := 3

section Web

variable (keccak : Keccak) (node : Node)

/-- The check of one module in `verifySuiteNow`. -/
def verifyEntry (directory coordinator : Address) (key : Module) :
    Except WebError (Module × Address × Bytes32) := do
  let address ← fetch .request (node.addressCall directory (.moduleAddress (.suite key)))
  let expectedHash ← fetch .request (node.hashCall directory (.moduleCodeHash (.suite key)))
  let verified ← fetch .request (node.boolCall directory (.verifyModule (.suite key)))
  revertIf (address = 0) (.moduleAddress key)
  revertIf (verified ≠ true) (.moduleRejected key)
  let code ← fetch .request (node.code address)
  revertIf (code.length = 0 ∨ keccak.ofBytes code ≠ expectedHash) (.moduleCode key)
  let boundDirectory ← fetch .request (node.addressCall address .suiteDirectory)
  let boundCoordinator ← fetch .request (node.addressCall address .bootstrapCoordinator)
  let boundId ← fetch .request (node.idCall address .moduleId)
  revertIf (boundDirectory ≠ directory) (.directoryBinding key)
  revertIf (boundCoordinator ≠ coordinator) (.coordinatorBinding key)
  revertIf (boundId ≠ .suite key) (.idBinding key)
  pure (key, address, expectedHash)

/-- `verifySuiteNow`. -/
def verifySuiteNow (cfg : AppConfig) : Except WebError SuiteBinding := do
  let directory ← fetch .configuration cfg.suiteDirectory
  let chainId ← fetch .request node.chainId
  let block ← fetch .request node.blockNumber
  revertIf (chainId ≠ cfg.evmChainId) (.chainId chainId)
  let directoryCode ← fetch .request (node.code directory)
  revertIf (directoryCode.length = 0) .directoryCode
  let state ← fetch .request (node.uint8Call directory .state)
  let version ← fetch .request (node.uint64Call directory .suiteVersion)
  let configured ← fetch .request (node.bigIntCall directory .configuredChainId)
  let snapshotRoot ← fetch .request (node.hashCall directory .snapshotRoot)
  let coordinator ← fetch .request (node.addressCall directory .bootstrapCoordinator)
  let coordinatorHash ← fetch .request (node.hashCall directory .bootstrapCoordinatorCodeHash)
  let count ← fetch .request (node.bigIntCall directory .registeredModuleCount)
  revertIf (state ≠ 1) .inactive
  revertIf (version ≠ suiteVersion) (.version version)
  revertIf (configured ≠ cfg.evmChainId) .configuredChainId
  revertIf (count ≠ requiredModules.length) (.moduleCount count)
  revertIf (coordinator = 0) .coordinator
  let coordinatorCode ← fetch .request (node.code coordinator)
  revertIf (coordinatorCode.length = 0 ∨ keccak.ofBytes coordinatorCode ≠ coordinatorHash)
    .coordinatorCode
  let modules ← requiredModules.mapM (verifyEntry keccak node directory coordinator)
  pure ⟨directory, coordinator, snapshotRoot, block, modules⟩

end Web

/-! ## What the chain answers -/

/-- `SuiteDirectory.suiteVersion`. -/
def deployedSuiteVersion : Nat := 3

/-- The module at an address. -/
def moduleOf (d : Deployment) (address : Address) : Option Module :=
  requiredModules.find? fun m => d.moduleAt m = address

/-- The answers of the coordinator, from its immutable fields. -/
def coordinatorView (d : Deployment) : View → Option Value
  | .suiteDirectory => some (.address d.suiteDirectory)
  | .snapshotRoot => some (.bytes32 d.snapshotRoot)
  | _ => none

/-- The answers of a module, from its immutable fields. -/
def moduleView (d : Deployment) (m : Module) : View → Option Value
  | .suiteDirectory => some (.address d.suiteDirectory)
  | .bootstrapCoordinator => some (.address d.bootstrapCoordinator)
  | .moduleId => some (.id (.suite m))
  | _ => none

/-- The answers to `ISuiteBound` at an address. A call of anything but a module reverts. -/
def boundView (d : Deployment) (address : Address) (view : View) : Option Value :=
  (moduleOf d address).bind fun m => moduleView d m view

section Chain

variable (d : Deployment) (s : Suite)

/-- `SuiteDirectory.moduleAddress`, which is zero for the ids of no module. -/
def moduleAddress : ModuleId → Address
  | .suite m => s.directory.moduleAddress m
  | .other _ => 0

/-- `SuiteDirectory.moduleCodeHash`. -/
def moduleCodeHash : ModuleId → Bytes32
  | .suite m => s.directory.moduleCodeHash m
  | .other _ => 0

/-- `SuiteDirectory.verifyModule`. The bindings are asked for one after the other, and only of an
address that has the recorded code. -/
def verifyModule (id : ModuleId) : Option Bool :=
  let module := moduleAddress s id
  if module = 0 ∨ d.codeLength module = 0 ∨ d.codeHash module ≠ moduleCodeHash s id then some false
  else do
    let directory ← boundView d module .suiteDirectory
    if directory ≠ .address d.suiteDirectory then some false
    else do
      let coordinator ← boundView d module .bootstrapCoordinator
      if coordinator ≠ .address s.directory.bootstrapCoordinator then some false
      else do
        let bound ← boundView d module .moduleId
        some (bound = .id id)

/-- `uint8(state)`. -/
def stateCode : DirectoryState → Nat
  | .bootstrapping => 0
  | .active => 1

/-- The answers of the directory. -/
def directoryView : View → Option Value
  | .suiteVersion => some (.uint64 deployedSuiteVersion)
  | .configuredChainId => some (.uint256 d.chainid)
  | .state => some (.uint8 (stateCode s.directory.state))
  | .snapshotRoot => some (.bytes32 d.snapshotRoot)
  | .bootstrapCoordinator => some (.address s.directory.bootstrapCoordinator)
  | .bootstrapCoordinatorCodeHash => some (.bytes32 s.directory.bootstrapCoordinatorCodeHash)
  | .registeredModuleCount => some (.uint256 s.directory.registeredModuleCount)
  | .moduleAddress id => some (.address (moduleAddress s id))
  | .moduleCodeHash id => some (.bytes32 (moduleCodeHash s id))
  | .verifyModule id => (verifyModule d s id).map .bool
  | .suiteDirectory => none
  | .moduleId => none

/-- The answer of the contract at an address, if one lives there. -/
def contractView (address : Address) (view : View) : Option Value :=
  if address = d.suiteDirectory then directoryView d s view
  else if address = d.bootstrapCoordinator then coordinatorView d view
  else boundView d address view

end Chain

/-- A node that reports a state of the chain at one block. The hash of an account with code is the
hash of that code, and block numbers have 64 bits. -/
structure Node.Reports (node : Node) (d : Deployment) (s : Suite) : Prop where
  chainId : node.chainId = some d.chainid
  block : ∃ block, node.blockNumber = some block ∧ block ≤ uint64Max
  code : ∀ address, ∃ code, node.code address = some code ∧ code.length = d.codeLength address ∧
    (code ≠ [] → d.keccak.ofBytes code = d.codeHash address)
  call : ∀ address view, node.call address view = contractView d s address view

end Igit.Client
