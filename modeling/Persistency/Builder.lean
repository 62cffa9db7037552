import Mathlib.Logic.Function.Basic

/-! # The caching `KvsBuilder`

`KvsBuilder::build` opens a store through `Kvs::open` and keeps the shared instance in the
static map `kvs_instances`, keyed by instance id. The builder constructed last,
`latest_instance`, empties that map when it is destroyed, and `clear_cache` empties it at
any time. `Kvs::open` belongs to the store, not to the builder: the caller of the model
answers each call to it, with any result, so everything below holds whatever the store does.

Objects are named by their allocation number. Comparing `this` with `latest_instance` is then
comparing allocation numbers: a builder alive when `latest_instance` was set lives at another
address, and a builder allocated later at a freed address has made itself the latest.
The builder of `kvsbuilder.cpp`, without mutexes and without `clear_cache`, has the same
steps while no two calls overlap; its runs are then the runs below that never call
`clearCache`. What the mutexes give when calls overlap is in `Persistency.Threads`.

A copy of a builder is not a step. The class definition, which would declare or delete the copy
constructor, is not part of this code, and nothing in it copies a builder. A copy made by the
compiler's copy constructor would not set `latest_instance`, so its destructor would never
empty the cache.
-/

namespace Persistency
set_option autoImplicit false

structure InstanceId where
  id : Nat
  deriving DecidableEq, Repr

inductive OpenNeedDefaults
  | Optional
  | Required
  deriving DecidableEq, Repr

inductive OpenNeedKvs
  | Optional
  | Required
  deriving DecidableEq, Repr

inductive MyErrorCode
  | UnmappedError | FileNotFound | KvsFileReadError | KvsHashFileReadError | JsonParserError
  | JsonGeneratorError | PhysicalStorageFailure | IntegrityCorrupted | ValidationFailed
  | EncryptionFailed | ResourceBusy | OutOfStorageSpace | QuotaExceeded | AuthenticationFailed
  | KeyNotFound | KeyDefaultNotFound | SerializationFailed | InvalidSnapshotId
  | ConversionFailed | MutexLockFailed | InvalidValueType
  deriving DecidableEq, Repr

structure OpenCall where
  instanceId : InstanceId
  needDefaults : OpenNeedDefaults
  needKvs : OpenNeedKvs
  dir : String
  deriving DecidableEq, Repr

structure KvsBuilder where
  instanceId : InstanceId
  needDefaults : Bool
  needKvs : Bool
  directory : String
  deriving DecidableEq, Repr

namespace KvsBuilder

def new (instanceId : InstanceId) : KvsBuilder :=
  { instanceId, needDefaults := false, needKvs := false, directory := "./data_folder/" }

def needDefaultsFlag (kb : KvsBuilder) (flag : Bool) : KvsBuilder := { kb with needDefaults := flag }

def needKvsFlag (kb : KvsBuilder) (flag : Bool) : KvsBuilder := { kb with needKvs := flag }

def dir (kb : KvsBuilder) (dirPath : String) : KvsBuilder := { kb with directory := dirPath }

/-- The first statement of `build`: an empty directory becomes `./`, in the builder itself. -/
def normalize (kb : KvsBuilder) : KvsBuilder :=
  if kb.directory = "" then { kb with directory := "./" } else kb

/-- The call `build` makes to `Kvs::open`. The directory is passed as `std::move(directory)`
to an rvalue reference that `Kvs::open` only reads: the builder's own test builds three
times with one builder and expects the last to open in the directory set before the first. -/
def openCall (kb : KvsBuilder) : OpenCall where
  instanceId := kb.instanceId
  needDefaults := if kb.needDefaults then .Required else .Optional
  needKvs := if kb.needKvs then .Required else .Optional
  dir := kb.directory

@[simp] theorem openCall_instanceId (kb : KvsBuilder) : kb.openCall.instanceId = kb.instanceId := rfl

@[simp] theorem normalize_instanceId (kb : KvsBuilder) : kb.normalize.instanceId = kb.instanceId := by
  unfold normalize; split <;> rfl

theorem normalize_directory_ne_empty (kb : KvsBuilder) : kb.normalize.directory ≠ "" := by
  unfold normalize; split
  · simp
  · assumption

end KvsBuilder

/-- What a call shows outside the builder: for `build`, the id it was made for, the call it
made to `Kvs::open` (made only when the id was not cached) and the `Result` it returned. -/
inductive Obs
  | unit
  | build (instanceId : InstanceId) (opened : Option OpenCall) (result : Except MyErrorCode Nat)

namespace Obs

def opened : Obs → Option OpenCall
  | .build _ oc _ => oc
  | .unit => none

/-- The id and the new instance a `build` cached: `Kvs::open` was called and succeeded. -/
def inserted : Obs → Option (Nat × Nat)
  | .build iid (some _) (.ok p) => some (iid.id, p)
  | _ => none

def returned : Obs → Option (Nat × Nat)
  | .build iid _ (.ok p) => some (iid.id, p)
  | _ => none

theorem inserted_eq_some {o : Obs} {i p : Nat} (h : o.inserted = some (i, p)) :
    ∃ iid oc, iid.id = i ∧ o = .build iid (some oc) (.ok p) := by
  rcases o with _ | ⟨iid, _ | oc, _ | p'⟩ <;> simp only [inserted, reduceCtorEq] at h
  obtain ⟨rfl, rfl⟩ := Prod.mk.inj (Option.some.inj h)
  exact ⟨iid, oc, rfl, rfl⟩

end Obs

/-- The static members `kvs_instances` (`kvs_map` in `kvsbuilder.cpp`) and `latest_instance`
(`none` is `nullptr`), the live builders, and a log of the values `std::make_shared<Kvs>` was
given. A pointer to a builder or a `Kvs` is its allocation number. The log is not the live
objects: it keeps a `Kvs` after `kvs_instances.clear()` and the callers have released it. -/
structure World (Kvs : Type) where
  kvsInstances : Nat → Option Nat
  latestInstance : Option Nat
  builders : Nat → Option KvsBuilder
  builderCount : Nat
  kvsObjects : Nat → Option Kvs
  kvsCount : Nat

/-- One call the program makes on the builder API. `build` carries the answer `Kvs::open`
gives to each call it could receive. -/
inductive Call (Kvs : Type)
  | kvsBuilder (instanceId : InstanceId)
  | dtor (b : Nat)
  | needDefaultsFlag (b : Nat) (flag : Bool)
  | needKvsFlag (b : Nat) (flag : Bool)
  | dir (b : Nat) (dirPath : String)
  | build (b : Nat) (kvsOpen : OpenCall → Except MyErrorCode Kvs)
  | clearCache

namespace World
variable {Kvs : Type}

def init : World Kvs where
  kvsInstances _ := none
  latestInstance := none
  builders _ := none
  builderCount := 0
  kvsObjects _ := none
  kvsCount := 0

/-- `KvsBuilder::KvsBuilder`: a new builder object, which sets `latest_instance = this`. -/
@[simps]
def kvsBuilder (w : World Kvs) (instanceId : InstanceId) : World Kvs :=
  { w with
    builders := Function.update w.builders w.builderCount (some (KvsBuilder.new instanceId))
    builderCount := w.builderCount + 1
    latestInstance := some w.builderCount }

@[simps]
def clearCache (w : World Kvs) : World Kvs := { w with kvsInstances := fun _ => none }

/-- `KvsBuilder::~KvsBuilder`: only the builder `latest_instance` designates empties the cache.
`latest_instance` is left as it is. -/
def dtor (w : World Kvs) (b : Nat) : World Kvs :=
  let w' := { w with builders := Function.update w.builders b none }
  if w.latestInstance = some b then w'.clearCache else w'

@[simps]
def setBuilder (w : World Kvs) (b : Nat) (kb : KvsBuilder) : World Kvs :=
  { w with builders := Function.update w.builders b (some kb) }

@[simps]
def cacheNew (w : World Kvs) (i : Nat) (kvs : Kvs) : World Kvs :=
  { w with
    kvsObjects := Function.update w.kvsObjects w.kvsCount (some kvs)
    kvsCount := w.kvsCount + 1
    kvsInstances := Function.update w.kvsInstances i (some w.kvsCount) }

/-- `KvsBuilder::build` on the live builder `kb` at `b`, as one step: under
`kvs_instances_mutex` no other thread sees the lookup, the call to `Kvs::open` and the
insertion apart. -/
def build (w : World Kvs) (b : Nat) (kb : KvsBuilder)
    (kvsOpen : OpenCall → Except MyErrorCode Kvs) : World Kvs × Obs :=
  let kb := kb.normalize
  let w := w.setBuilder b kb
  match w.kvsInstances kb.instanceId.id with
  | some p => (w, .build kb.instanceId none (.ok p))
  | none =>
    match kvsOpen kb.openCall with
    | .ok kvs => (w.cacheNew kb.instanceId.id kvs, .build kb.instanceId (some kb.openCall) (.ok w.kvsCount))
    | .error e => (w, .build kb.instanceId (some kb.openCall) (.error e))

/-- One call. A call on a builder that is not alive is undefined behaviour and has no step. -/
def step (w : World Kvs) : Call Kvs → Option (World Kvs × Obs)
  | .kvsBuilder instanceId => some (w.kvsBuilder instanceId, .unit)
  | .dtor b => (w.builders b).map fun _ => (w.dtor b, .unit)
  | .needDefaultsFlag b flag => (w.builders b).map fun kb => (w.setBuilder b (kb.needDefaultsFlag flag), .unit)
  | .needKvsFlag b flag => (w.builders b).map fun kb => (w.setBuilder b (kb.needKvsFlag flag), .unit)
  | .dir b dirPath => (w.builders b).map fun kb => (w.setBuilder b (kb.dir dirPath), .unit)
  | .build b kvsOpen => (w.builders b).map fun kb => w.build b kb kvsOpen
  | .clearCache => some (w.clearCache, .unit)

/-- Whether the call empties the cache: `clear_cache`, or the destruction of the builder
`latest_instance` designates. -/
def clearsCache (w : World Kvs) : Call Kvs → Bool
  | .dtor b => decide (w.latestInstance = some b)
  | .clearCache => true
  | _ => false

end World

end Persistency
