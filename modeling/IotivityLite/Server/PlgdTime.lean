import IotivityLite.Foundation.CborHeads
import IotivityLite.Foundation.Run
import IotivityLite.Rep.Decode
import IotivityLite.Security.Rep

/-!
# The synchronised time

`plgd_time.c`: the time of the last synchronisation with the reading of the
monotonic clock at that moment, from which the current time is computed.  It
is set by the application, by a POST, or from what was stored; the application
may ask to be told of the new time.  The monotonic clock never goes back, but
a reading of it can fail.
-/

namespace IotivityLite

inductive PlgdTimeStatus where
  | uninitialized
  | syncing
  | inSync
  | inSyncFromStorage
  deriving DecidableEq

/-- `plgd_time_t` -/
structure PlgdTime where
  lastSyncedTime : UInt64
  status : PlgdTimeStatus
  updateTime : UInt64
  deriving DecidableEq

/-- What the device is set up with: how payloads are read, how times are
parsed and printed, and whether `set_system_time` is there. -/
structure TimeSetup where
  codec : CborCodec
  /-- `oc_clock_parse_time_rfc3339_v1` -/
  parseTime : Bytes → Option UInt64
  /-- `oc_clock_encode_time_rfc3339` succeeds. -/
  encodes : UInt64 → Bool
  setSystemTime : Bool

/-- `(oc_clock_time_t)-1` -/
def clockError : UInt64 := 0xFFFFFFFFFFFFFFFF

/-- What `oc_clock_time_monotonic` returns after it has returned `clock`. -/
def monotonicReading (clock reading : UInt64) : UInt64 :=
  if reading = clockError then clockError
  else if clock ≤ reading then reading
  else clock

/-- The latest reading that did not fail. -/
def monotonicClock (clock reading : UInt64) : UInt64 :=
  if reading = clockError then clock else monotonicReading clock reading

def devTimeIsActive (time : PlgdTime) : Bool :=
  0 < time.lastSyncedTime

/-- `dev_plgd_time` with the monotonic clock at `cur`; `none` is the failed
assertion. -/
def devPlgdTime (time : PlgdTime) (cur : UInt64) : Option UInt64 :=
  if !devTimeIsActive time then some clockError
  else if cur = clockError then some clockError
  else if 2 ^ 63 ≤ (cur - time.updateTime).toNat then none
  else some (time.lastSyncedTime + (cur - time.updateTime))

structure TimeWorld where
  time : PlgdTime
  /-- the latest reading of the monotonic clock -/
  clock : UInt64

/-- What the callback is given, and the monotonic clock at that moment. -/
structure TimeNotice where
  cur : UInt64
  value : Option UInt64
  deriving DecidableEq

structure TimeOutcome where
  world : TimeWorld
  notices : List TimeNotice
  ok : Bool

/-- `plgd_time_set`; dumping and notifying do not change the time. -/
def plgdTimeSet (setup : TimeSetup) (clock lastSyncedTime updateTime : UInt64)
    (reading : UInt64) : TimeOutcome :=
  let time := ⟨lastSyncedTime, .inSync, updateTime⟩
  if setup.setSystemTime then
    let cur := monotonicReading clock reading
    ⟨⟨time, monotonicClock clock reading⟩,
      [⟨cur, devPlgdTime time cur⟩], true⟩
  else ⟨⟨time, clock⟩, [], true⟩

/-- `dev_time_set_time`, with the readings for the update time and for the
callback. -/
def devTimeSetTime (setup : TimeSetup) (world : TimeWorld) (lst : UInt64)
    (update notice : UInt64) : TimeOutcome :=
  if lst = 0 then plgdTimeSet setup world.clock 0 0 notice
  else
    let updateTime := monotonicReading world.clock update
    let clock := monotonicClock world.clock update
    if updateTime = clockError then ⟨⟨world.time, clock⟩, [], false⟩
    else plgdTimeSet setup clock lst updateTime notice

def lastSyncedTimeName : Bytes := ascii "lastSyncedTime"

/-- The last string with the name of the property. -/
def findLastSyncedTime (rep : OcRep) : Option Bytes :=
  rep.foldl (fun found node =>
    match node.2 with
    | .string value => if node.1 = lastSyncedTimeName then some value else found
    | _ => found) none

/-- `plgd_time_decode` -/
def plgdTimeDecode (setup : TimeSetup) (rep : OcRep) : Option UInt64 :=
  (findLastSyncedTime rep).bind setup.parseTime

/-- `plgd_time_encode` for a request. -/
def plgdTimeEncode (setup : TimeSetup) (time : PlgdTime) (cur : UInt64) :
    Bool :=
  if devTimeIsActive time then
    match devPlgdTime time cur with
    | none => false
    | some now =>
        now != clockError && setup.encodes now &&
          setup.encodes time.lastSyncedTime
  else true

/-- `plgd_time_resource_post` -/
def plgdTimeResourcePost (setup : TimeSetup) (world : TimeWorld)
    (payload : OcRep) (update notice encode : UInt64) : TimeOutcome :=
  match plgdTimeDecode setup payload with
  | none => ⟨world, [], false⟩
  | some lst =>
      let set := devTimeSetTime setup world lst update notice
      if set.ok then
        -- the time is set whether or not it can be encoded
        ⟨⟨set.world.time, monotonicClock set.world.clock encode⟩, set.notices,
          plgdTimeEncode setup set.world.time
            (monotonicReading set.world.clock encode)⟩
      else set

/-- `oc_storage_data_load`: the time that is then set.  The number of bytes is
a success even if there was nothing to decode in them. -/
def storedTime (setup : TimeSetup) : Option Bytes → Option UInt64
  | none => none
  | some [] => none
  | some stored =>
      match ocParseRep setup.codec stored with
      | [] => some 0
      | node :: rep => plgdTimeDecode setup (node :: rep)

/-- `plgd_time_load` -/
def plgdTimeLoad (setup : TimeSetup) (world : TimeWorld)
    (stored : Option Bytes) (update notice : UInt64) : TimeOutcome :=
  match storedTime setup stored with
  | none => ⟨world, [], false⟩
  | some lst =>
      let set := devTimeSetTime setup world lst update notice
      if set.ok then
        ⟨⟨⟨set.world.time.lastSyncedTime, .inSyncFromStorage,
            set.world.time.updateTime⟩, set.world.clock⟩, set.notices, true⟩
      else set

/-- What happens to the time, with the readings of the monotonic clock that
are made for it. -/
inductive TimeInput where
  | setTime (time update notice : UInt64)
  | post (payload : OcRep) (update notice encode : UInt64)
  | dump (saved : Bool)
  | load (stored : Option Bytes) (update notice : UInt64)
  | read (reading : UInt64)

def timeOutcome (setup : TimeSetup) (world : TimeWorld) :
    TimeInput → TimeOutcome
  | .setTime time update notice =>
      devTimeSetTime setup world time update notice
  | .post payload update notice encode =>
      plgdTimeResourcePost setup world payload update notice encode
  | .dump saved => ⟨world, [], saved⟩
  | .load stored update notice =>
      plgdTimeLoad setup world stored update notice
  | .read reading =>
      ⟨⟨world.time, monotonicClock world.clock reading⟩, [], true⟩

def timeStep (setup : TimeSetup) (world : TimeWorld) (input : TimeInput) :
    TimeWorld :=
  (timeOutcome setup world input).world

def TimeWorld.start : TimeWorld := ⟨⟨0, .uninitialized, 0⟩, 0⟩

/-- The time that an input asks to set, where there is one in it. -/
def requestedTime (setup : TimeSetup) : TimeInput → Option UInt64
  | .setTime time _ _ => some time
  | .post payload _ _ _ => plgdTimeDecode setup payload
  | .load (some stored) _ _ => plgdTimeDecode setup (ocParseRep setup.codec stored)
  | .load none _ _ => none
  | .dump _ => none
  | .read _ => none

/-- The reading of the clock for an input that sets the time. -/
def updateReading (world : TimeWorld) : TimeInput → UInt64
  | .setTime _ update _ => monotonicReading world.clock update
  | .post _ update _ _ => monotonicReading world.clock update
  | .load _ update _ => monotonicReading world.clock update
  | .dump _ => world.clock
  | .read reading => monotonicReading world.clock reading

/-- The value is the last synchronised time and what has passed since. -/
structure IsTime (time : PlgdTime) (cur : UInt64) (value : Option UInt64) :
    Prop where
  active : 0 < time.lastSyncedTime
  readable : cur ≠ clockError
  exact : ∃ now, value = some now ∧ now.toNat =
    time.lastSyncedTime.toNat + (cur.toNat - time.updateTime.toNat)

structure TimeContract (setup : TimeSetup) (world : TimeWorld)
    (input : TimeInput) : Prop where
  /-- What was set is the time and the moment. -/
  sets : ∀ lst, requestedTime setup input = some lst →
    (timeOutcome setup world input).ok = true →
      (timeStep setup world input).time.lastSyncedTime = lst ∧
      (lst ≠ 0 → (timeStep setup world input).time.updateTime =
        updateReading world input)
  /-- Without a time to set, and after a failure, nothing has changed. -/
  keeps : requestedTime setup input = none ∨
      (timeOutcome setup world input).ok = false →
    (timeStep setup world input).time = world.time
  /-- The time is right whenever it is active. -/
  reads : ∀ reading, input = .read reading →
    0 < world.time.lastSyncedTime →
      IsTime world.time (monotonicReading world.clock reading)
        (devPlgdTime world.time (monotonicReading world.clock reading))
  /-- The application is only told of such a time, and of no error. -/
  notices : ∀ notice ∈ (timeOutcome setup world input).notices,
    IsTime (timeStep setup world input).time notice.cur notice.value ∧
      notice.value ≠ some clockError

/-- The time can be computed with the monotonic clock at `cur`. -/
structure Readable (time : PlgdTime) (cur : UInt64) : Prop where
  active : 0 < time.lastSyncedTime
  readable : cur ≠ clockError
  short : cur.toNat - time.updateTime.toNat < 2 ^ 63
  fits : time.lastSyncedTime.toNat +
    (cur.toNat - time.updateTime.toNat) < 2 ^ 64

/-- The time after a request to set it. -/
def newTime (lst updateTime : UInt64) : PlgdTime :=
  ⟨lst, .inSync, if lst = 0 then 0 else updateTime⟩

/-- The application is told of the right time, or of nothing. -/
def NoticeRight (setup : TimeSetup) (clock lst update notice : UInt64) :
    Prop :=
  setup.setSystemTime = true →
    lst ≠ 0 ∧
    (monotonicReading clock update ≠ clockError →
      Readable (newTime lst (monotonicReading clock update))
        (monotonicReading (monotonicClock clock update) notice) ∧
      lst.toNat +
        ((monotonicReading (monotonicClock clock update) notice).toNat -
          (monotonicReading clock update).toNat) ≠ 2 ^ 64 - 1)

/-- The reading with which the new time is encoded in a response. -/
def encodeReading (setup : TimeSetup) (clock update notice encode : UInt64) :
    UInt64 :=
  monotonicReading
    (if setup.setSystemTime then
      monotonicClock (monotonicClock clock update) notice
    else monotonicClock clock update) encode

/-- The input does not reach a defect. -/
def SafeInput (setup : TimeSetup) (world : TimeWorld) : TimeInput → Prop
  | .setTime time update notice =>
      NoticeRight setup world.clock time update notice
  | .post payload update notice encode =>
      ∀ lst, plgdTimeDecode setup payload = some lst →
        NoticeRight setup world.clock lst update notice ∧
        (lst = 0 ∨ monotonicReading world.clock update ≠ clockError →
          newTime lst (monotonicReading world.clock update) = world.time ∨
          plgdTimeEncode setup
            (newTime lst (monotonicReading world.clock update))
            (encodeReading setup world.clock update notice encode) = true)
  | .dump _ => True
  | .load stored update notice =>
      ∀ lst, storedTime setup stored = some lst →
        NoticeRight setup world.clock lst update notice ∧
        (requestedTime setup (.load stored update notice) = none →
          world.time = ⟨0, .inSyncFromStorage, 0⟩)
  | .read reading =>
      0 < world.time.lastSyncedTime →
        Readable world.time (monotonicReading world.clock reading)

variable {setup : TimeSetup} {world : TimeWorld} {time : PlgdTime}
  {clock reading cur : UInt64}

theorem clock_le_monotonicReading
    (readable : monotonicReading clock reading ≠ clockError) :
    clock ≤ monotonicReading clock reading := by
  unfold monotonicReading at readable ⊢
  by_cases failed : reading = clockError
  · rw [if_pos failed] at readable
    exact (readable rfl).elim
  · rw [if_neg failed]
    by_cases later : clock ≤ reading
    · rw [if_pos later]
      exact later
    · rw [if_neg later]
      exact UInt64.le_refl clock

theorem monotonicClock_of_readable
    (readable : monotonicReading clock reading ≠ clockError) :
    monotonicClock clock reading = monotonicReading clock reading := by
  unfold monotonicClock
  refine if_neg fun failed => readable ?_
  unfold monotonicReading
  rw [if_pos failed]

theorem clock_le_monotonicClock (clock reading : UInt64) :
    clock ≤ monotonicClock clock reading := by
  unfold monotonicClock monotonicReading
  by_cases failed : reading = clockError
  · rw [if_pos failed]
    exact UInt64.le_refl clock
  · rw [if_neg failed, if_neg failed]
    by_cases later : clock ≤ reading
    · rw [if_pos later]
      exact later
    · rw [if_neg later]
      exact UInt64.le_refl clock

theorem toNat_elapsed (set : time.updateTime ≤ cur) :
    (cur - time.updateTime).toNat =
      cur.toNat - time.updateTime.toNat :=
  UInt64.toNat_sub_of_le _ _ set

theorem devPlgdTime_of_active (active : 0 < time.lastSyncedTime)
    (readable : cur ≠ clockError) :
    devPlgdTime time cur =
      if 2 ^ 63 ≤ (cur - time.updateTime).toNat then none
      else some (time.lastSyncedTime + (cur - time.updateTime)) := by
  unfold devPlgdTime devTimeIsActive
  rw [decide_eq_true active, if_neg (by simp), if_neg readable]

theorem isTime_devPlgdTime_iff (set : time.updateTime ≤ cur) :
    IsTime time cur (devPlgdTime time cur) ↔ Readable time cur := by
  constructor
  · rintro ⟨active, readable, now, computed, exact⟩
    rw [devPlgdTime_of_active active readable] at computed
    by_cases long : 2 ^ 63 ≤ (cur - time.updateTime).toNat
    · rw [if_pos long] at computed
      contradiction
    rw [toNat_elapsed set] at long
    refine ⟨active, readable, by omega, ?_⟩
    rw [← exact]
    exact now.toNat_lt
  · rintro ⟨active, readable, short, fits⟩
    refine ⟨active, readable,
      time.lastSyncedTime + (cur - time.updateTime), ?_, ?_⟩
    · rw [devPlgdTime_of_active active readable, toNat_elapsed set,
        if_neg (by omega)]
    · rw [UInt64.toNat_add, toNat_elapsed set, Nat.mod_eq_of_lt fits]

theorem devPlgdTime_ne_clockError_iff (set : time.updateTime ≤ cur)
    (readable : Readable time cur) :
    devPlgdTime time cur ≠ some clockError ↔
      time.lastSyncedTime.toNat +
        (cur.toNat - time.updateTime.toNat) ≠ 2 ^ 64 - 1 := by
  obtain ⟨now, computed, exact⟩ := ((isTime_devPlgdTime_iff set).mpr
    readable).exact
  rw [computed, ← exact]
  refine not_congr ?_
  rw [Option.some_inj, ← UInt64.toNat_inj]
  exact Iff.rfl

/-- The update time lies before every reading from then on. -/
structure UpdatedBefore (world : TimeWorld) : Prop where
  past : world.time.updateTime ≤ world.clock

variable {lst update notice : UInt64}

/-- The time is set unless the clock cannot be read. -/
def Settable (clock lst update : UInt64) : Prop :=
  lst = 0 ∨ monotonicReading clock update ≠ clockError

/-- What `dev_time_set_time` does. -/
structure Sets (setup : TimeSetup) (world : TimeWorld)
    (lst update notice : UInt64) (set : TimeOutcome) : Prop where
  ok_iff : set.ok = true ↔ Settable world.clock lst update
  fails : ¬ Settable world.clock lst update →
    set.world.time = world.time ∧ set.notices = []
  time : Settable world.clock lst update → set.world.time =
    newTime lst (monotonicReading world.clock update)
  notices : (∀ told ∈ set.notices,
      IsTime set.world.time told.cur told.value ∧
        told.value ≠ some clockError) ↔
    NoticeRight setup world.clock lst update notice
  clock : lst ≠ 0 → monotonicReading world.clock update ≠ clockError →
    set.world.clock = if setup.setSystemTime then
      monotonicClock (monotonicClock world.clock update) notice
    else monotonicClock world.clock update
  updated : UpdatedBefore world → UpdatedBefore set.world

theorem plgdTimeSet_told (told : setup.setSystemTime = true)
    (clock lst update reading : UInt64) :
    plgdTimeSet setup clock lst update reading =
      ⟨⟨⟨lst, .inSync, update⟩, monotonicClock clock reading⟩,
        [⟨monotonicReading clock reading,
          devPlgdTime ⟨lst, .inSync, update⟩
            (monotonicReading clock reading)⟩], true⟩ :=
  if_pos told

theorem plgdTimeSet_untold (untold : ¬ setup.setSystemTime = true)
    (clock lst update reading : UInt64) :
    plgdTimeSet setup clock lst update reading =
      ⟨⟨⟨lst, .inSync, update⟩, clock⟩, [], true⟩ :=
  if_neg untold

theorem sets_zero (setup : TimeSetup) (world : TimeWorld)
    (update notice : UInt64) :
    Sets setup world 0 update notice
      (devTimeSetTime setup world 0 update notice) := by
  have unfolded : devTimeSetTime setup world 0 update notice =
      plgdTimeSet setup world.clock 0 0 notice := if_pos rfl
  have settable : Settable world.clock 0 update := .inl rfl
  rw [unfolded]
  by_cases told : setup.setSystemTime = true
  · rw [plgdTimeSet_told told]
    refine ⟨iff_of_true rfl settable, fun not => (not settable).elim,
      fun _ => rfl, ?_, fun nonzero => (nonzero rfl).elim,
      fun _ => ⟨UInt64.zero_le⟩⟩
    refine iff_of_false (fun right => ?_) fun right => (right told).1 rfl
    have active := (right _ (List.mem_singleton_self _)).1.active
    exact UInt64.lt_irrefl 0 active
  · rw [plgdTimeSet_untold told]
    refine ⟨iff_of_true rfl settable, fun not => (not settable).elim,
      fun _ => rfl, ?_, fun nonzero => (nonzero rfl).elim,
      fun _ => ⟨UInt64.zero_le⟩⟩
    exact iff_of_true (by simp) fun here => (told here).elim

theorem sets_failed (nonzero : lst ≠ 0)
    (failed : monotonicReading world.clock update = clockError) :
    Sets setup world lst update notice
      (devTimeSetTime setup world lst update notice) := by
  have refused : ¬ Settable world.clock lst update :=
    fun settable => settable.elim nonzero fun readable => readable failed
  have unfolded : devTimeSetTime setup world lst update notice =
      ⟨⟨world.time, monotonicClock world.clock update⟩, [], false⟩ := by
    unfold devTimeSetTime
    rw [if_neg nonzero]
    exact if_pos failed
  rw [unfolded]
  refine ⟨?_, fun _ => ⟨rfl, rfl⟩, fun settable => (refused settable).elim,
    ?_, fun _ readable => (readable failed).elim, fun updated => ⟨?_⟩⟩
  · exact iff_of_false (by simp) refused
  · refine iff_of_true (by simp) fun _ => ⟨nonzero, ?_⟩
    exact fun readable => (readable failed).elim
  · exact UInt64.le_trans updated.past (clock_le_monotonicClock _ _)

theorem le_monotonicReading (clock reading : UInt64) :
    clock ≤ monotonicReading clock reading := by
  by_cases readable : monotonicReading clock reading = clockError
  · rw [readable, UInt64.le_iff_toNat_le]
    exact Nat.le_of_lt_succ clock.toNat_lt
  · exact clock_le_monotonicReading readable

theorem sets_readable (nonzero : lst ≠ 0)
    (readable : monotonicReading world.clock update ≠ clockError) :
    Sets setup world lst update notice
      (devTimeSetTime setup world lst update notice) := by
  have settable : Settable world.clock lst update := .inr readable
  have clock := monotonicClock_of_readable readable
  have time : newTime lst (monotonicReading world.clock update) =
      ⟨lst, .inSync, monotonicReading world.clock update⟩ := by
    unfold newTime
    rw [if_neg nonzero]
  have unfolded : devTimeSetTime setup world lst update notice =
      plgdTimeSet setup (monotonicClock world.clock update) lst
        (monotonicReading world.clock update) notice := by
    unfold devTimeSetTime
    rw [if_neg nonzero]
    exact if_neg readable
  rw [unfolded]
  by_cases told : setup.setSystemTime = true
  · have set : (newTime lst
        (monotonicReading world.clock update)).updateTime ≤
          monotonicReading (monotonicClock world.clock update) notice := by
      rw [time, ← clock]
      exact le_monotonicReading _ _
    rw [plgdTimeSet_told told, ← time]
    refine ⟨iff_of_true rfl settable, fun not => (not settable).elim,
      fun _ => rfl, ?_, fun _ _ => (if_pos told).symm, fun _ => ⟨?_⟩⟩
    · rw [List.forall_mem_singleton, isTime_devPlgdTime_iff set]
      constructor
      · rintro ⟨right, noError⟩ -
        refine ⟨nonzero, fun _ => ⟨right, ?_⟩⟩
        have sum := (devPlgdTime_ne_clockError_iff set right).mp noError
        rw [time] at sum
        exact sum
      · intro right
        obtain ⟨right, sum⟩ := (right told).2 readable
        refine ⟨right, (devPlgdTime_ne_clockError_iff set right).mpr ?_⟩
        rw [time]
        exact sum
    · rw [time, ← clock]
      exact clock_le_monotonicClock _ _
  · rw [plgdTimeSet_untold told, ← time]
    refine ⟨iff_of_true rfl settable, fun not => (not settable).elim,
      fun _ => rfl, ?_, fun _ _ => (if_neg told).symm, fun _ => ⟨?_⟩⟩
    · exact iff_of_true (by simp) fun here => (told here).elim
    · rw [time, ← clock]
      exact UInt64.le_refl _

theorem sets_devTimeSetTime (setup : TimeSetup) (world : TimeWorld)
    (lst update notice : UInt64) :
    Sets setup world lst update notice
      (devTimeSetTime setup world lst update notice) := by
  by_cases zero : lst = 0
  · subst zero
    exact sets_zero setup world update notice
  · by_cases readable : monotonicReading world.clock update = clockError
    · exact sets_failed zero readable
    · exact sets_readable zero readable

theorem Sets.of_ok {set : TimeOutcome}
    (sets : Sets setup world lst update notice set) (ok : set.ok = true) :
    set.world.time.lastSyncedTime = lst ∧
      (lst ≠ 0 → set.world.time.updateTime =
        monotonicReading world.clock update) := by
  rw [sets.time (sets.ok_iff.mp ok)]
  exact ⟨rfl, fun nonzero => if_neg nonzero⟩

theorem Sets.unchanged {set : TimeOutcome}
    (sets : Sets setup world lst update notice set) (failed : set.ok = false) :
    set.world.time = world.time ∧ set.notices = [] :=
  sets.fails fun settable => by
    rw [sets.ok_iff.mpr settable] at failed
    contradiction

theorem storedTime_cases {stored : Option Bytes} {update notice : UInt64}
    (found : storedTime setup stored = some lst) :
    requestedTime setup (.load stored update notice) = some lst ∨
      requestedTime setup (.load stored update notice) = none ∧ lst = 0 := by
  match stored with
  | none => contradiction
  | some [] => contradiction
  | some (byte :: bytes) =>
      unfold storedTime at found
      show plgdTimeDecode setup (ocParseRep setup.codec (byte :: bytes)) = _ ∨
        plgdTimeDecode setup (ocParseRep setup.codec (byte :: bytes)) = _ ∧ _
      cases parsed : ocParseRep setup.codec (byte :: bytes) with
      | nil =>
          simp only [parsed] at found
          exact .inr ⟨rfl, (Option.some_inj.mp found).symm⟩
      | cons node rep =>
          simp only [parsed] at found
          exact .inl found

/-- The contract for an input that is no reading, of what comes of it. -/
structure OutcomeRight (requested : Option UInt64) (before : PlgdTime)
    (moment : UInt64) (outcome : TimeOutcome) : Prop where
  sets : ∀ lst, requested = some lst → outcome.ok = true →
    outcome.world.time.lastSyncedTime = lst ∧
      (lst ≠ 0 → outcome.world.time.updateTime = moment)
  keeps : requested = none ∨ outcome.ok = false →
    outcome.world.time = before
  notices : ∀ notice ∈ outcome.notices,
    IsTime outcome.world.time notice.cur notice.value ∧
      notice.value ≠ some clockError

theorem contract_iff_outcomeRight {input : TimeInput}
    (noReading : ∀ reading, input ≠ .read reading) :
    TimeContract setup world input ↔
      OutcomeRight (requestedTime setup input) world.time
        (updateReading world input) (timeOutcome setup world input) := by
  constructor
  · exact fun contract => ⟨contract.sets, contract.keeps, contract.notices⟩
  · exact fun right => ⟨right.sets, right.keeps,
      fun reading same => (noReading reading same).elim, right.notices⟩

theorem outcomeRight_of_failed {requested : Option UInt64}
    {before : PlgdTime} {moment : UInt64} {outcome : TimeOutcome}
    (failed : outcome.ok = false) (time : outcome.world.time = before)
    (silent : outcome.notices = []) :
    OutcomeRight requested before moment outcome where
  sets lst _ ok := by
    rw [failed] at ok
    contradiction
  keeps _ := time
  notices notice member := by
    rw [silent] at member
    simp at member

theorem contract_setTime_iff (setup : TimeSetup) (world : TimeWorld)
    (time update notice : UInt64) :
    TimeContract setup world (.setTime time update notice) ↔
      SafeInput setup world (.setTime time update notice) := by
  have sets := sets_devTimeSetTime setup world time update notice
  rw [contract_iff_outcomeRight (by simp)]
  constructor
  · exact fun right => sets.notices.mp right.notices
  · intro safe
    refine ⟨?_, ?_, sets.notices.mpr safe⟩
    · rintro lst requested ok
      rw [← Option.some_inj.mp requested]
      exact sets.of_ok ok
    · rintro (absent | failed)
      · contradiction
      · exact (sets.unchanged failed).1

theorem plgdTimeEncode_of_inactive {cur : UInt64} {time : PlgdTime}
    (inactive : time.lastSyncedTime = 0) :
    plgdTimeEncode setup time cur = true := by
  unfold plgdTimeEncode devTimeIsActive
  rw [inactive]
  rfl

theorem contract_post_iff (setup : TimeSetup) (world : TimeWorld)
    (payload : OcRep) (update notice encode : UInt64) :
    TimeContract setup world (.post payload update notice encode) ↔
      SafeInput setup world (.post payload update notice encode) := by
  rw [contract_iff_outcomeRight (by simp)]
  show OutcomeRight (plgdTimeDecode setup payload) world.time
      (monotonicReading world.clock update)
      (plgdTimeResourcePost setup world payload update notice encode) ↔ _
  unfold plgdTimeResourcePost
  cases decoded : plgdTimeDecode setup payload with
  | none =>
      refine iff_of_true (outcomeRight_of_failed rfl rfl rfl) ?_
      intro lst same
      rw [decoded] at same
      contradiction
  | some lst =>
      have sets := sets_devTimeSetTime setup world lst update notice
      have safe_iff : SafeInput setup world
          (.post payload update notice encode) ↔
          NoticeRight setup world.clock lst update notice ∧
          (Settable world.clock lst update →
            newTime lst (monotonicReading world.clock update) = world.time ∨
            plgdTimeEncode setup
              (newTime lst (monotonicReading world.clock update))
              (encodeReading setup world.clock update notice encode) =
                true) := by
        constructor
        · exact fun safe => safe lst decoded
        · intro safe other same
          rw [decoded] at same
          rw [← Option.some_inj.mp same]
          exact safe
      rw [safe_iff, ← sets.notices]
      cases ok : (devTimeSetTime setup world lst update notice).ok with
      | false =>
          obtain ⟨time, silent⟩ := sets.unchanged ok
          simp only [ok, Bool.false_eq_true, if_false]
          refine iff_of_true (outcomeRight_of_failed ok time silent) ?_
          refine ⟨by simp [silent], fun settable => ?_⟩
          rw [sets.ok_iff.mpr settable] at ok
          contradiction
      | true =>
          have settable := sets.ok_iff.mp ok
          simp only [ok, if_true, settable, forall_true_left]
          have encoded : plgdTimeEncode setup
              (newTime lst (monotonicReading world.clock update))
              (encodeReading setup world.clock update notice encode) =
            plgdTimeEncode setup
              (devTimeSetTime setup world lst update notice).world.time
              (monotonicReading
                (devTimeSetTime setup world lst update notice).world.clock
                encode) := by
            rw [sets.time settable]
            by_cases zero : lst = 0
            · subst zero
              rw [plgdTimeEncode_of_inactive rfl,
                plgdTimeEncode_of_inactive rfl]
            · rw [sets.clock zero (settable.resolve_left zero)]
              rfl
          rw [encoded]
          constructor
          · intro right
            refine ⟨right.notices, ?_⟩
            cases done : plgdTimeEncode setup
              (devTimeSetTime setup world lst update notice).world.time
              (monotonicReading
                (devTimeSetTime setup world lst update notice).world.clock
                encode) with
            | true => exact .inr rfl
            | false =>
                refine .inl ?_
                rw [← sets.time settable]
                exact right.keeps (.inr done)
          · rintro ⟨notices, kept⟩
            refine ⟨?_, ?_, notices⟩
            · rintro other same -
              rw [← Option.some_inj.mp same]
              exact sets.of_ok ok
            · rintro (absent | failed)
              · contradiction
              · rcases kept with same | done
                · exact (sets.time settable).trans same
                · have failed : plgdTimeEncode setup
                    (devTimeSetTime setup world lst update notice).world.time
                    (monotonicReading (devTimeSetTime setup world lst update
                      notice).world.clock encode) = false := failed
                  rw [done] at failed
                  contradiction

theorem contract_load_iff (setup : TimeSetup) (world : TimeWorld)
    (stored : Option Bytes) (update notice : UInt64) :
    TimeContract setup world (.load stored update notice) ↔
      SafeInput setup world (.load stored update notice) := by
  rw [contract_iff_outcomeRight (by simp)]
  show OutcomeRight (requestedTime setup (.load stored update notice))
      world.time (monotonicReading world.clock update)
      (plgdTimeLoad setup world stored update notice) ↔ _
  unfold plgdTimeLoad
  cases found : storedTime setup stored with
  | none =>
      refine iff_of_true (outcomeRight_of_failed rfl rfl rfl) ?_
      intro lst same
      rw [found] at same
      contradiction
  | some lst =>
      have sets := sets_devTimeSetTime setup world lst update notice
      have safe_iff : SafeInput setup world (.load stored update notice) ↔
          NoticeRight setup world.clock lst update notice ∧
          (requestedTime setup (.load stored update notice) = none →
            world.time = ⟨0, .inSyncFromStorage, 0⟩) := by
        constructor
        · exact fun safe => safe lst found
        · intro safe other same
          rw [found] at same
          rw [← Option.some_inj.mp same]
          exact safe
      rw [safe_iff, ← sets.notices]
      cases ok : (devTimeSetTime setup world lst update notice).ok with
      | false =>
          obtain ⟨time, silent⟩ := sets.unchanged ok
          simp only [ok, Bool.false_eq_true, if_false]
          refine iff_of_true (outcomeRight_of_failed ok time silent) ?_
          refine ⟨by simp [silent], fun absent => ?_⟩
          rcases storedTime_cases found with decoded | ⟨-, rfl⟩
          · rw [absent] at decoded
            contradiction
          · rw [sets.ok_iff.mpr (.inl rfl)] at ok
            contradiction
      | true =>
          have settable := sets.ok_iff.mp ok
          have notices_iff : (∀ told ∈ (devTimeSetTime setup world lst update
              notice).notices,
              IsTime ⟨(devTimeSetTime setup world lst update
                  notice).world.time.lastSyncedTime, .inSyncFromStorage,
                (devTimeSetTime setup world lst update
                  notice).world.time.updateTime⟩ told.cur told.value ∧
                told.value ≠ some clockError) ↔
              ∀ told ∈ (devTimeSetTime setup world lst update notice).notices,
                IsTime (devTimeSetTime setup world lst update
                  notice).world.time told.cur told.value ∧
                told.value ≠ some clockError := by
            refine forall_congr' fun told => imp_congr_right fun _ =>
              and_congr_left' ?_
            exact ⟨fun is => ⟨is.active, is.readable, is.exact⟩,
              fun is => ⟨is.active, is.readable, is.exact⟩⟩
          simp only [ok, if_true]
          rw [← notices_iff]
          constructor
          · intro right
            refine ⟨right.notices, fun absent => ?_⟩
            have same := right.keeps (.inl absent)
            rcases storedTime_cases found with decoded | ⟨-, rfl⟩
            · rw [absent] at decoded
              contradiction
            · rw [← same, sets.time settable]
              rfl
          · rintro ⟨notices, kept⟩
            refine ⟨?_, ?_, notices⟩
            · rintro other same -
              rcases storedTime_cases found with decoded | ⟨absent, -⟩
              · rw [decoded] at same
                rw [← Option.some_inj.mp same]
                exact sets.of_ok ok
              · rw [absent] at same
                contradiction
            · rintro (absent | failed)
              · rcases storedTime_cases found with decoded | ⟨-, rfl⟩
                · rw [absent] at decoded
                  contradiction
                · rw [kept absent, sets.time settable]
                  rfl
              · contradiction

theorem contract_read_iff (updated : UpdatedBefore world) (reading : UInt64) :
    TimeContract setup world (.read reading) ↔
      SafeInput setup world (.read reading) := by
  have set : world.time.updateTime ≤ monotonicReading world.clock reading :=
    UInt64.le_trans updated.past (le_monotonicReading _ _)
  constructor
  · intro contract active
    exact (isTime_devPlgdTime_iff set).mp (contract.reads reading rfl active)
  · intro safe
    refine ⟨by simp [requestedTime], fun _ => rfl, ?_,
      by simp [timeOutcome]⟩
    rintro other same active
    rw [← TimeInput.read.inj same]
    exact (isTime_devPlgdTime_iff set).mpr (safe active)

theorem timeContract_iff (updated : UpdatedBefore world) (input : TimeInput) :
    TimeContract setup world input ↔ SafeInput setup world input := by
  cases input with
  | setTime time update notice =>
      exact contract_setTime_iff setup world time update notice
  | post payload update notice encode =>
      exact contract_post_iff setup world payload update notice encode
  | dump saved =>
      refine iff_of_true ⟨by simp [requestedTime], fun _ => rfl,
        fun reading same => by contradiction, by simp [timeOutcome]⟩ trivial
  | load stored update notice =>
      exact contract_load_iff setup world stored update notice
  | read reading => exact contract_read_iff updated reading

theorem updatedBefore_timeStep (updated : UpdatedBefore world) (input : TimeInput) :
    UpdatedBefore (timeStep setup world input) := by
  cases input with
  | setTime time update notice =>
      exact (sets_devTimeSetTime setup world time update notice).updated updated
  | post payload update notice encode =>
      show UpdatedBefore (plgdTimeResourcePost setup world payload update notice
        encode).world
      unfold plgdTimeResourcePost
      cases plgdTimeDecode setup payload with
      | none => exact updated
      | some lst =>
          have set := (sets_devTimeSetTime setup world lst update
            notice).updated updated
          simp only
          split
          · exact ⟨UInt64.le_trans set.past (clock_le_monotonicClock _ _)⟩
          · exact set
  | dump saved => exact updated
  | load stored update notice =>
      show UpdatedBefore (plgdTimeLoad setup world stored update notice).world
      unfold plgdTimeLoad
      cases storedTime setup stored with
      | none => exact updated
      | some lst =>
          have set := (sets_devTimeSetTime setup world lst update
            notice).updated updated
          simp only
          split
          · exact ⟨set.past⟩
          · exact set
  | read reading =>
      exact ⟨UInt64.le_trans updated.past (clock_le_monotonicClock _ _)⟩

theorem updatedBefore_start : UpdatedBefore TimeWorld.start := ⟨UInt64.le_refl 0⟩

/-- A run keeps the contract exactly if none of its inputs reaches a defect. -/
theorem plgd_time_run (setup : TimeSetup) (inputs : List TimeInput) :
    Along (timeStep setup) (TimeContract setup) TimeWorld.start inputs ↔
      Along (timeStep setup) (SafeInput setup) TimeWorld.start inputs := by
  refine Along.congr_iff_of_invariant updatedBefore_start ?_ ?_
  · exact fun world input updated => timeContract_iff updated input
  · exact fun world input updated _ => updatedBefore_timeStep updated input

/-- The application is told of an error when the time is reset. -/
theorem not_timeContract_reset :
    ¬ Along (timeStep ⟨shortestHeads, fun _ => none, fun _ => true, true⟩)
      (TimeContract ⟨shortestHeads, fun _ => none, fun _ => true, true⟩)
      TimeWorld.start [.setTime 0 5 6] := by
  rintro ⟨contract, -⟩
  have told := contract.notices ⟨6, some clockError⟩
    (List.mem_singleton_self _)
  exact told.2 rfl

end IotivityLite
