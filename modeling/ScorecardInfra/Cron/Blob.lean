import ScorecardInfra.GoStd.Maps
import ScorecardInfra.GoStd.Strings
import ScorecardInfra.GoStd.Time

/-!
# Keys of the batch buckets, and buckets

The objects of a job lie under a prefix that is made of the job's time (`getBlobFilename`); the
shards, the metadata and the marker of a transfer have their own names under it. The prefix is read
back by `parseBlobFilename`, up to the fraction of a second (`parseBlobFilename_getBlobFilename`),
so keys of different seconds are different (`getBlobFilename_inj`).

A bucket is a finite map from keys to contents.

## Main definitions

* `getBlobFilename`, `parseBlobFilename`, `Bucket`, `Bucket.blobKeys`,
  `Bucket.blobContent`.

Sources: `cron/data/blob.go`; `cron/config/config.go`, lines 33–38.
-/

namespace ScorecardInfra.Cron

open GoStd Interaction

/-! ### Errors -/

/-- The errors of the batch programs. -/
inductive CronError : Type
  /-- A package-level value: `errors.New(message)`. -/
  | sentinel (message : String)
  /-- An error from outside the repository, or `fmt.Errorf` without `%w`. -/
  | text (message : String)
  /-- An error of `time.Parse`. -/
  | parseTime (e : Time.ParseError)
  /-- `fmt.Errorf("before%wafter", e)`. -/
  | wrap (before : String) (e : CronError) (after : String)
  /-- `fmt.Errorf("%wbetween%w", e₁, e₂)`. -/
  | wrapBoth (e₁ : CronError) (between : String) (e₂ : CronError)
  deriving DecidableEq, Repr

/-- `fmt.Errorf("context: %w", e)`. -/
def CronError.wrapf (context : String) (e : CronError) : CronError := .wrap (context ++ ": ") e ""

/-- The error of a pure function, with a context. -/
def inContext {α : Type} (context : String) (x : Except CronError α) : Except CronError α :=
  x.mapError (.wrapf context)

/-- The error of a library function, with a context. -/
def libraryResult {α : Type} (context : String) (x : Except String α) : Except CronError α :=
  x.mapError fun message => .wrapf context (.text message)

theorem libraryResult_eq_ok {α : Type} {context : String} {x : Except String α} {a : α} :
    libraryResult context x = .ok a ↔ x = .ok a := mapError_eq_ok

theorem inContext_eq_ok {α : Type} {context : String} {x : Except CronError α} {a : α} :
    inContext context x = .ok a ↔ x = .ok a := mapError_eq_ok

/-- `errShortBlobName`. -/
def errShortBlobName : CronError := .sentinel "input key length is shorter than expected"

/-- `errParseBlobName`. -/
def errParseBlobName : CronError := .sentinel "error parsing input blob name"

/-! ### Keys -/

/-- `ShardMetadataFilename`. -/
def shardMetadataFilename : String := ".shard_metadata"

/-- `ShardNumFilename`. -/
def shardNumFilename : String := ".shard_num"

/-- `TransferStatusFilename`. -/
def transferStatusFilename : String := ".transfer_complete"

/-- `filePrefixFormat`. -/
def filePrefixFormat : String := "2006.01.02/150405/"

/-- `GetBlobFilename`.

Source: `cron/data/blob.go`, lines 131–134. -/
def getBlobFilename (filename : String) (datetime : Time) : String :=
  String.ofList datetime.format ++ filename

/-- `GetShardNumFilename`. -/
def getShardNumFilename (datetime : Time) : String := getBlobFilename shardNumFilename datetime

/-- `GetTransferStatusFilename`. -/
def getTransferStatusFilename (datetime : Time) : String :=
  getBlobFilename transferStatusFilename datetime

/-- `GetShardMetadataFilename`. -/
def getShardMetadataFilename (datetime : Time) : String :=
  getBlobFilename shardMetadataFilename datetime

/-- `ParseBlobFilename`. A key, as every string here, has one character for each of its bytes, so
that lengths and slices are those of its bytes.

Source: `cron/data/blob.go`, lines 151–163. -/
def parseBlobFilename (key : String) : Except CronError (Time × String) :=
  let n := filePrefixFormat.toList.length
  if key.toList.length < n then .error (.wrap "" errShortBlobName (": " ++ key))
  else do
    let t ← (Time.parse (key.toList.take n)).mapError fun e =>
      .wrapBoth errParseBlobName ": " (.parseTime e)
    return (t, String.ofList (key.toList.drop n))

/-- A key is read back as the name and the time, truncated to the second, that it was made of. -/
theorem parseBlobFilename_getBlobFilename (filename : String) (t : Time) :
    parseBlobFilename (getBlobFilename filename t) = .ok (t.truncate, filename) := by
  have hlen : t.format.length = filePrefixFormat.toList.length := t.length_format
  have hkey : (getBlobFilename filename t).toList = t.format ++ filename.toList := by
    simp [getBlobFilename]
  rw [parseBlobFilename, hkey, List.take_left' hlen, List.drop_left' hlen, Time.parse_format,
    if_neg (by rw [List.length_append]; omega), String.ofList_toList]
  rfl

/-- Keys determine the name and the second. -/
theorem getBlobFilename_inj {filename filename' : String} {t t' : Time}
    (h : getBlobFilename filename t = getBlobFilename filename' t') :
    t.truncate = t'.truncate ∧ filename = filename' := by
  have hparse := parseBlobFilename_getBlobFilename filename t
  rw [h, parseBlobFilename_getBlobFilename] at hparse
  obtain ⟨ht, hname⟩ := Prod.mk.inj (Except.ok.inj hparse)
  exact ⟨ht.symm, hname.symm⟩

/-- The key depends on the second only. -/
theorem getBlobFilename_congr {filename : String} {t t' : Time} (h : t.truncate = t'.truncate) :
    getBlobFilename filename t = getBlobFilename filename t' := by
  have hformat : t.truncate.format = t.format := rfl
  have hformat' : t'.truncate.format = t'.format := rfl
  rw [getBlobFilename, getBlobFilename, ← hformat, ← hformat', h]

/-! ### Buckets -/

/-- The objects of a bucket. -/
abbrev Bucket : Type := GoMap String String

namespace Bucket

variable (b : Bucket)

/-- `GetBlobKeys`: the keys, as `List` iterates over them. -/
def blobKeys : List String := b.keys.mergeSort (· ≤ ·)

/-- `GetBlobContent`. -/
def blobContent (key : String) : Except String String :=
  ((b.lookup key).map .ok).getD (.error "blob not found")

variable {b}

theorem mem_blobKeys {key : String} : key ∈ b.blobKeys ↔ key ∈ b := by
  rw [blobKeys, List.mem_mergeSort, AList.mem_keys]

theorem nodup_blobKeys : b.blobKeys.Nodup :=
  (List.mergeSort_perm _ _).nodup_iff.mpr b.keys_nodup

theorem blobContent_eq_ok {key data : String} :
    b.blobContent key = .ok data ↔ b.lookup key = some data := by
  cases h : b.lookup key <;> simp [blobContent, h]

theorem exists_lookup {key : String} (h : key ∈ b) : ∃ data, b.lookup key = some data :=
  Option.isSome_iff_exists.mp (AList.lookup_isSome.mpr h)

end Bucket

end ScorecardInfra.Cron
