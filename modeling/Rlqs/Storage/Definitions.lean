import Mathlib
import Rlqs.Lib.GoMap

/-!
# RLQS storage — bucket keys and the in-memory store

The executable model of `internal/storage/storage.go`: Go strings are byte
lists (so `len` and `sort.Strings` are length and lexicographic order of
bytes), a `BucketId` carries its `map[string]string` with one iteration order,
counters are `uint64` with wrap-around addition.

* `bucketKeyFromProto`, `domainScopedKey` — the two key encoders;
* `MemoryStorage` with `get`, `update`, `reset`, `all`, `len`, `clear`;
* `BucketStore` — the interface the server is written against, and its
  in-memory instance.
-/

namespace Rlqs

abbrev Byte := Fin 256

/-- A Go string: its bytes. -/
abbrev Str := List Byte

-- named, so that byte literals and tests on strings use one instance in every module
instance byteNeZero : NeZero (256 : ℕ) := ⟨by decide⟩

instance strLawfulBEq : LawfulBEq Str := inferInstance

/-- The bytes of an ASCII text. -/
def ascii (s : List Char) : Str := s.map fun c => Fin.ofNat 256 c.toNat

/-- A `time.Duration` or an instant, in nanoseconds. -/
abbrev Nanos := Int

/-- A Go `error` value, by its text. -/
abbrev GoError := String

/-- An operand of a format verb. -/
inductive Arg where
  | int (n : Int)
  | str (s : Str)
  | err (e : GoError)
  deriving DecidableEq

/-- A `fmt.Errorf` error: format and operands, and the error a last `%w` wraps. -/
inductive Errorf where
  | new (format : String) (args : List Arg)
  | wrap (format : String) (args : List Arg) (e : Errorf)
  deriving DecidableEq

/-- `storage.BucketKey`. -/
abbrev BucketKey := Str

/-- `rlqspb.BucketId`. -/
structure BucketId where
  bucket : GoMap Str Str

-- ---------------------------------------------------------------------------
-- Key encoders
-- ---------------------------------------------------------------------------

/-- `'\x00'`, between a key and its value. -/
def nullByte : Byte := 0x00

/-- `'\x1e'`, between two pairs. -/
def recordSep : Byte := 0x1e

/-- `'\x1f'`, between the domain and the bucket key. -/
def unitSep : Byte := 0x1f

/-- One pair of the bucket map as it is written to the key. -/
def writePair (bucket : GoMap Str Str) (k : Str) : Str :=
  k ++ nullByte :: (bucket.lookup k).getD []

/-- `BucketKeyFromProto`: the pairs in the order of their sorted keys, `0x1e`
between two of them. -/
def bucketKeyFromProto : Option BucketId → BucketKey
  | none => []
  | some id =>
    if GoMap.len id.bucket = 0 then []
    else [recordSep].intercalate
      ((id.bucket.keys.insertionSort (· ≤ ·)).map (writePair id.bucket))

/-- `DomainScopedKey`. -/
def domainScopedKey (domain : Str) (key : BucketKey) : BucketKey :=
  if domain = [] then key else domain ++ unitSep :: key

-- ---------------------------------------------------------------------------
-- Reports and the store interface
-- ---------------------------------------------------------------------------

/-- `storage.UsageReport`. -/
structure UsageReport where
  bucketId : Option BucketId
  numRequestsAllowed : UInt64
  numRequestsDenied : UInt64
  timeElapsed : Nanos

/-- The key under which a store files a report. -/
def UsageReport.scopedKey (domain : Str) (r : UsageReport) : BucketKey :=
  domainScopedKey domain (bucketKeyFromProto r.bucketId)

/-- `storage.BucketStore`: both calls return the store's new state and the
error handed to the caller. -/
class BucketStore (σ : Type) where
  recordUsage : σ → Str → UsageReport → σ × Option GoError
  removeBucket : σ → Str → BucketKey → σ × Option GoError

-- ---------------------------------------------------------------------------
-- The in-memory store
-- ---------------------------------------------------------------------------

/-- `storage.UsageState`. -/
structure UsageState where
  allowed : UInt64
  denied : UInt64
  deriving DecidableEq

/-- `storage.MemoryStorage`. -/
structure MemoryStorage where
  buckets : GoMap BucketKey UsageState

namespace MemoryStorage

def newMemoryStorage : MemoryStorage := ⟨∅⟩

def get (s : MemoryStorage) (key : BucketKey) : Option UsageState := s.buckets.lookup key

def update (s : MemoryStorage) (key : BucketKey) (allowed denied : UInt64) : MemoryStorage :=
  match s.buckets.lookup key with
  | none => ⟨s.buckets.insert key ⟨allowed, denied⟩⟩
  | some state => ⟨s.buckets.insert key ⟨state.allowed + allowed, state.denied + denied⟩⟩

def reset (s : MemoryStorage) (key : BucketKey) : MemoryStorage := ⟨s.buckets.erase key⟩

def all (s : MemoryStorage) : GoMap BucketKey UsageState := s.buckets

def recordUsage (s : MemoryStorage) (domain : Str) (report : UsageReport) : MemoryStorage :=
  let key := bucketKeyFromProto report.bucketId
  let scopedKey := domainScopedKey domain key
  s.update scopedKey report.numRequestsAllowed report.numRequestsDenied

def removeBucket (s : MemoryStorage) (domain : Str) (key : BucketKey) : MemoryStorage :=
  s.reset (domainScopedKey domain key)

def len (s : MemoryStorage) : ℕ := GoMap.len s.buckets

def clear (_ : MemoryStorage) : MemoryStorage := ⟨∅⟩

end MemoryStorage

/-- The in-memory store never reports an error. -/
instance : BucketStore MemoryStorage where
  recordUsage s domain report := (s.recordUsage domain report, none)
  removeBucket s domain key := (s.removeBucket domain key, none)

-- ---------------------------------------------------------------------------
-- A concrete bucket
-- ---------------------------------------------------------------------------

/-- The bucket `{"a": "b"}`. -/
def sampleId : BucketId := ⟨AList.singleton [97] [98]⟩

/-- The sample bucket's scoped key, `"d\x1fa\x00b"`. -/
def sampleKey : BucketKey := domainScopedKey [100] (bucketKeyFromProto (some sampleId))

-- ---------------------------------------------------------------------------
-- Reading rules
-- ---------------------------------------------------------------------------

namespace MemoryStorage

/-- A lookup after `Update`: the updated key reads the sums, the others are
untouched. -/
theorem get_update (s : MemoryStorage) (key key' : BucketKey) (a d : UInt64) :
    (s.update key a d).get key' =
      if key' = key then
        some ⟨((s.get key).map UsageState.allowed).getD 0 + a,
          ((s.get key).map UsageState.denied).getD 0 + d⟩
      else s.get key' := by
  unfold update get
  cases h : s.buckets.lookup key with
  | none => simp [GoMap.lookup_insert_if]
  | some st => simp [GoMap.lookup_insert_if]

theorem get_reset (s : MemoryStorage) (key key' : BucketKey) :
    (s.reset key).get key' = if key' = key then none else s.get key' :=
  GoMap.lookup_erase_if s.buckets key key'

/-- `RecordUsage` touches only the report's scoped key. -/
theorem get_recordUsage (s : MemoryStorage) (domain : Str) (r : UsageReport) (key : BucketKey) :
    (s.recordUsage domain r).get key =
      if key = r.scopedKey domain then
        some ⟨((s.get key).map UsageState.allowed).getD 0 + r.numRequestsAllowed,
          ((s.get key).map UsageState.denied).getD 0 + r.numRequestsDenied⟩
      else s.get key := by
  rw [recordUsage, get_update]
  by_cases h : key = r.scopedKey domain
  · rw [if_pos h, h]
    exact if_pos rfl
  · rw [if_neg h]
    exact if_neg h

theorem get_removeBucket (s : MemoryStorage) (domain : Str) (key key' : BucketKey) :
    (s.removeBucket domain key).get key' =
      if key' = domainScopedKey domain key then none else s.get key' :=
  get_reset s _ key'

end MemoryStorage

end Rlqs
