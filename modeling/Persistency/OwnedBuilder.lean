import Persistency.Builder

/-! # The builder that returns an owned `Kvs`

The other version of `KvsBuilder` keeps no cache and no `latest_instance`. It has one more
member, the storage mode, which `build` passes to `Kvs::open` as a fifth argument; `build`
returns what `Kvs::open` returns. `score::os::Stat::Mode` and its default value are not part
of this code and are parameters here.
-/

namespace Persistency.Owned
set_option autoImplicit false

structure OpenCall (Mode : Type) extends Persistency.OpenCall where
  storageMode : Mode

structure KvsBuilder (Mode : Type) extends Persistency.KvsBuilder where
  storageMode_ : Mode

namespace KvsBuilder

variable {Mode Kvs : Type}

/-- `KvsBuilder::KvsBuilder`, with `defaultMode` for
`kReadUser|kWriteUser|kReadGroup|kReadOthers`. -/
def new (defaultMode : Mode) (instanceId : InstanceId) : KvsBuilder Mode :=
  { toKvsBuilder := .new instanceId, storageMode_ := defaultMode }

def needDefaultsFlag (kb : KvsBuilder Mode) (flag : Bool) : KvsBuilder Mode :=
  { kb with toKvsBuilder := kb.toKvsBuilder.needDefaultsFlag flag }

def needKvsFlag (kb : KvsBuilder Mode) (flag : Bool) : KvsBuilder Mode :=
  { kb with toKvsBuilder := kb.toKvsBuilder.needKvsFlag flag }

def dir (kb : KvsBuilder Mode) (dirPath : String) : KvsBuilder Mode :=
  { kb with toKvsBuilder := kb.toKvsBuilder.dir dirPath }

def storageMode (kb : KvsBuilder Mode) (mode : Mode) : KvsBuilder Mode := { kb with storageMode_ := mode }

/-- `KvsBuilder::build`. Its `result` starts as `UnmappedError`, which the result of
`Kvs::open` always overwrites. -/
def build (kb : KvsBuilder Mode) (kvsOpen : OpenCall Mode → Except MyErrorCode Kvs) :
    KvsBuilder Mode × OpenCall Mode × Except MyErrorCode Kvs :=
  let kb := { kb with toKvsBuilder := kb.normalize }
  let call : OpenCall Mode := { kb.openCall with storageMode := kb.storageMode_ }
  (kb, call, kvsOpen call)

end KvsBuilder

end Persistency.Owned
