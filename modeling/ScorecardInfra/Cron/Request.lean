import Mathlib.Data.List.FinRange
import ScorecardInfra.Cron.Blob

/-!
# Batch requests

A job is split into requests, numbered from 0, that carry the time of the job. The number and the
second of a request make the key of its result (`resultFilename`); different numbers have different
names (`shardName_injective`).

## Main definitions

* `Repo`, `ScorecardBatchRequest`, `RequestCodec`, `resultFilename`.

Sources: `cron/data/request.proto`; `cron/worker/worker.go`, lines 146–151.
-/

namespace ScorecardInfra.Cron

open GoStd

/-- `Repo`. -/
structure Repo where
  url : Option String
  commit : Option String
  metadata : List String
  deriving DecidableEq

/-- `ScorecardBatchRequest`, with the time that `AsTime` makes of `JobTime`. -/
structure ScorecardBatchRequest where
  repos : List Repo
  shardNum : Option Int32
  jobTime : Option Time
  deriving DecidableEq

/-- The time of the zero timestamp. -/
def epoch : Time where
  year := 1970
  month := 1
  day := 1
  hour := 0
  minute := 0
  second := 0
  nanosecond := 0
  year_le := by decide
  month_mem := by decide
  day_mem := by decide
  hour_le := by decide
  minute_le := by decide
  second_le := by decide
  nanosecond_le := Time.zero_nanosecond_le

namespace ScorecardBatchRequest

/-- `GetShardNum`. -/
def getShardNum (sbr : ScorecardBatchRequest) : Int32 := sbr.shardNum.getD 0

/-- `GetJobTime().AsTime()`. -/
def getJobTime (sbr : ScorecardBatchRequest) : Time := sbr.jobTime.getD epoch

end ScorecardBatchRequest

/-- `protojson` at the type `ScorecardBatchRequest`: it reads back what it writes. -/
structure RequestCodec where
  marshal : ScorecardBatchRequest → Except String String
  unmarshal : String → Except String ScorecardBatchRequest
  unmarshal_marshal : ∀ request data, marshal request = .ok data → unmarshal data = .ok request

/-! ### Results -/

/-- `fmt.Sprintf("%07d", n)`: the width includes the sign. -/
def sprintf07d (n : Int) : List Char :=
  if n < 0 then '-' :: appendInt 6 n.natAbs else appendInt 7 n.natAbs

/-- The name of a shard. -/
def shardName (shardNum : Int32) : String :=
  String.ofList ("shard-".toList ++ sprintf07d shardNum.toInt)

/-- `ResultFilename`.

Source: `cron/worker/worker.go`, lines 146–151. -/
def resultFilename (sbr : ScorecardBatchRequest) : String :=
  getBlobFilename (shardName sbr.getShardNum) sbr.getJobTime

theorem sprintf07d_injective : Function.Injective sprintf07d := by
  intro n m h
  have hne : ∀ k l : Nat, '-' :: appendInt 6 k ≠ appendInt 7 l := by
    intro k l h
    have hmem : '-' ∈ appendInt 7 l := by
      rw [← h]
      exact List.mem_cons_self
    exact absurd (isDigit_of_mem_appendInt hmem) (by decide)
  unfold sprintf07d at h
  split_ifs at h with hn hm hm
  · obtain ⟨-, h⟩ := List.cons_eq_cons.mp h
    have := appendInt_injective 6 h
    omega
  · exact absurd h (hne _ _)
  · exact absurd h.symm (hne _ _)
  · have := appendInt_injective 7 h
    omega

theorem toList_shardName (shardNum : Int32) :
    (shardName shardNum).toList = "shard-".toList ++ sprintf07d shardNum.toInt :=
  String.toList_ofList

theorem shardName_injective : Function.Injective shardName := by
  intro n m h
  have hlist := congrArg String.toList h
  rw [toList_shardName, toList_shardName] at hlist
  exact Int32.toInt_inj.mp (sprintf07d_injective (List.append_cancel_left hlist))

theorem hasPrefix_shardName (shardNum : Int32) :
    Strings.hasPrefix (shardName shardNum) "shard-" = true := by
  rw [Strings.hasPrefix, toList_shardName, List.isPrefixOf_iff_prefix]
  exact List.prefix_append _ _

end ScorecardInfra.Cron
