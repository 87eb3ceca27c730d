import IotivityLite.Foundation.Run
import IotivityLite.Security.Rep

/-!
# The software-update resource

`oc_swupdate.c`: a payload is decoded, validated and copied in three passes,
and an accepted request schedules the update action.  The same first two
passes serve `oc_swupdate_validate_update`, which reports errors to a callback
and may go on behind them.

The clock, the parser of timestamps and the callback that judges a package URL
are parameters.
-/

namespace IotivityLite

inductive OcSwupdateAction where
  | idle
  | isac
  | isvv
  | upgrade
  deriving DecidableEq, Repr

inductive OcSwupdateState where
  | idle
  | nsa
  | svv
  | sva
  | upgrading
  deriving DecidableEq, Repr

inductive SwupdateError where
  | invalidImplementation
  | invalidProperty
  | readonlyProperty
  | invalidPropertyValue
  | updatetimeNotSet
  | updatetimeInvalid
  | purlNotSet
  | purlInvalid
  deriving DecidableEq, Repr

/-- `updatetime` and `updatetime_set` -/
inductive UpdateTimeSet where
  | notSet
  | set (time : Nat)
  | none
  | now
  deriving DecidableEq, Repr

/-- `oc_swupdate_decode_t`; the other flags are options. -/
structure SwupdateDecode where
  purl : Option Bytes
  nv : Option Bytes
  signage : Option Bytes
  swupdateaction : Option OcSwupdateAction
  swupdatestate : Option OcSwupdateState
  swupdateresult : Option Int
  lastupdate : Option Nat
  updatetime : UpdateTimeSet
  deriving DecidableEq, Repr

def SwupdateDecode.zero : SwupdateDecode :=
  ⟨none, none, none, none, none, none, none, .notSet⟩

/-- `oc_swupdate_t`; a text is missing while its pointer is null. -/
structure OcSwupdate where
  purl : Option Bytes
  nv : Option Bytes
  signage : Option Bytes
  swupdateaction : OcSwupdateAction
  swupdatestate : OcSwupdateState
  swupdateresult : Int
  lastupdate : Nat
  updatetime : Nat
  deriving DecidableEq, Repr

/-- The flags of `oc_swupdate_decode_flag_t`. -/
structure SwupdateFlags where
  ignoreErrors : Bool
  fromStorage : Bool
  validateDecodedData : Bool

def SwupdateFlags.post : SwupdateFlags := ⟨false, false, true⟩

/-- What the code asks others for: `parseTime` is
`oc_clock_parse_time_rfc3339_v1`, `validatePurl` the callback of the
implementation, if there is one. -/
structure SwupdateEnv where
  parseTime : Bytes → Option Nat
  validatePurl : Option (Bytes → Int)

/-- The error callback: what it returns in which of its calls. -/
abbrev SwupdateOnError :=
  Option (Nat → Option (Bytes × RepValue) → SwupdateError → Bool)

def ocSwupdateActionFromStr (text : Bytes) : Option OcSwupdateAction :=
  if text = ascii "idle" then some .idle
  else if text = ascii "isac" then some .isac
  else if text = ascii "isvv" then some .isvv
  else if text = ascii "upgrade" then some .upgrade
  else none

def ocSwupdateStateFromStr (text : Bytes) : Option OcSwupdateState :=
  if text = ascii "idle" then some .idle
  else if text = ascii "nsa" then some .nsa
  else if text = ascii "svv" then some .svv
  else if text = ascii "sva" then some .sva
  else if text = ascii "upgrading" then some .upgrading
  else none

section Decode

variable (env : SwupdateEnv) (flags : SwupdateFlags)

def swupdateDecodeTimestamp (value : Bytes) : Option Nat :=
  if value.length ≥ 63 then none else env.parseTime value

def swupdateDecodeIntProperty (name : Bytes) (value : Int)
    (decode : SwupdateDecode) : Except SwupdateError SwupdateDecode :=
  if name = ascii "swupdateresult" then
    if !flags.fromStorage then .error .readonlyProperty
    else .ok { decode with swupdateresult := some value }
  else .error .invalidProperty

def swupdateDecodeUpdateTime (value : Bytes) (decode : SwupdateDecode) :
    Except SwupdateError SwupdateDecode :=
  if !flags.fromStorage ∧ value = ascii "none" then
    .ok { decode with updatetime := .none }
  else if !flags.fromStorage ∧ value = ascii "now" then
    .ok { decode with updatetime := .now }
  else
    match swupdateDecodeTimestamp env value with
    | none => .error .invalidPropertyValue
    | some time => .ok { decode with updatetime := .set time }

def swupdateDecodeStringProperty (name value : Bytes)
    (decode : SwupdateDecode) : Except SwupdateError SwupdateDecode :=
  if name = ascii "nv" then
    if !flags.fromStorage then .error .readonlyProperty
    else .ok { decode with nv := some value }
  else if name = ascii "signed" then
    if !flags.fromStorage then .error .readonlyProperty
    else .ok { decode with signage := some value }
  else if name = ascii "swupdateaction" then
    match ocSwupdateActionFromStr value with
    | none => .error .invalidPropertyValue
    | some action => .ok { decode with swupdateaction := some action }
  else if name = ascii "swupdatestate" then
    if !flags.fromStorage then .error .readonlyProperty
    else
      match ocSwupdateStateFromStr value with
      | none => .error .invalidPropertyValue
      | some state => .ok { decode with swupdatestate := some state }
  else if name = ascii "lastupdate" then
    if !flags.fromStorage then .error .readonlyProperty
    else
      match swupdateDecodeTimestamp env value with
      | none => .error .invalidPropertyValue
      | some time => .ok { decode with lastupdate := some time }
  else if name = ascii "updatetime" then
    swupdateDecodeUpdateTime env flags value decode
  else if name = ascii "purl" then .ok { decode with purl := some value }
  else .error .invalidProperty

def swupdateDecodeProperty (entry : Bytes × RepValue)
    (decode : SwupdateDecode) : Except SwupdateError SwupdateDecode :=
  match entry with
  | (name, .int value) => swupdateDecodeIntProperty flags name value decode
  | (name, .string value) =>
      swupdateDecodeStringProperty env flags name value decode
  | _ => .error .invalidProperty

/-- `now` is the reading of the clock. -/
def swupdateValidateUpdatetime (now : Nat) (decode : SwupdateDecode) :
    Option SwupdateError :=
  match decode.updatetime with
  | .notSet => some .updatetimeNotSet
  | .set time => if time < now then some .updatetimeInvalid else none
  | _ => none

def swupdateValidatePackageUrl (decode : SwupdateDecode) :
    Option SwupdateError :=
  match decode.purl with
  | none => some .purlNotSet
  | some purl =>
      match env.validatePurl with
      | none => some .invalidImplementation
      | some validatePurl =>
          if validatePurl purl < 0 then some .purlInvalid else none

/-- What the callback returns in its call with the number `call`; false
without a callback. -/
def callOnError (onError : SwupdateOnError) (call : Nat)
    (entry : Option (Bytes × RepValue)) (error : SwupdateError) : Bool :=
  match onError with
  | none => false
  | some fn => fn call entry error

def swupdateValidateDecodedData (now : Nat) (skipPurlValidation : Bool)
    (onError : SwupdateOnError) (call : Nat) (decode : SwupdateDecode) :
    Bool :=
  let error := swupdateValidateUpdatetime now decode
  let stopped := match error with
    | some error => !callOnError onError call none error
    | none => false
  if stopped then false
  else
    let isValid := error.isNone
    if skipPurlValidation then isValid
    else
      match swupdateValidatePackageUrl env decode with
      | none => isValid
      -- the callback is told, but its answer does not matter
      | some _ => false

/-- The loop over the properties: the number of calls of the callback so far,
whether all were decoded, and what was.  `none` when the loop was left. -/
def swupdateDecodeLoop (onError : SwupdateOnError) :
    (rep : Rep) → (call : Nat) → (isValid : Bool) → SwupdateDecode →
      Option (Nat × Bool × SwupdateDecode)
  | [], call, isValid, decode => some (call, isValid, decode)
  | entry :: rep, call, isValid, decode =>
      match swupdateDecodeProperty env flags entry decode with
      | .ok decode => swupdateDecodeLoop onError rep call isValid decode
      | .error error =>
          if flags.ignoreErrors then
            swupdateDecodeLoop onError rep call isValid decode
          else if !callOnError onError call (some entry) error then none
          else swupdateDecodeLoop onError rep (call + 1) false decode

/-- The first byte of a C string. -/
def isEmptyText (text : Bytes) : Bool := text.headD 0 = 0

/-- An empty package URL next to an action is not validated when there is a
previous one. -/
def skipsPurlValidation (hasPurl : Bool) (decode : SwupdateDecode) : Bool :=
  match decode.swupdateaction, decode.purl with
  | some action, some purl => action ≠ .idle && isEmptyText purl && hasPurl
  | _, _ => false

/-- `swupdate_decode`; what was decoded, if the payload is accepted. -/
def swupdateDecode (now : Nat) (hasPurl : Bool) (onError : SwupdateOnError)
    (rep : Rep) : Option SwupdateDecode :=
  match swupdateDecodeLoop env flags onError rep 0 true .zero with
  | none => none
  | some (call, isValid, decode) =>
      if !isValid then none
      else if !flags.validateDecodedData then some decode
      else if swupdateValidateDecodedData env now
          (skipsPurlValidation hasPurl decode) onError call decode then
        some decode
      else none

end Decode

/-- `now` is the reading of the clock at this point. -/
def swupdateDecodeCopy (now : Nat) (src : SwupdateDecode) (dst : OcSwupdate) :
    OcSwupdate where
  purl := src.purl.or dst.purl
  nv := src.nv.or dst.nv
  signage := src.signage.or dst.signage
  swupdateaction := src.swupdateaction.getD dst.swupdateaction
  swupdatestate := src.swupdatestate.getD dst.swupdatestate
  swupdateresult := src.swupdateresult.getD dst.swupdateresult
  lastupdate := src.lastupdate.getD dst.lastupdate
  updatetime := match src.updatetime with
    | .notSet => dst.updatetime
    | .set time => time
    | .none => 0
    | .now => now

/-- `oc_swupdate_decode`: the result and the state. -/
def ocSwupdateDecode (env : SwupdateEnv) (flags : SwupdateFlags)
    (now copyTime : Nat) (rep : Rep) (dst : OcSwupdate) : Bool × OcSwupdate :=
  match swupdateDecode env flags now dst.purl.isSome none rep with
  | none => (false, dst)
  | some decode => (true, swupdateDecodeCopy copyTime decode dst)

def ocSwupdateValidateUpdate (env : SwupdateEnv) (now : Nat)
    (onError : SwupdateOnError) (rep : Rep) (swupdate : OcSwupdate) : Bool :=
  (swupdateDecode env .post now swupdate.purl.isSome onError rep).isSome

/-- The state of a device and the delays of the timed callbacks
`swupdate_update_async` that are set for it. -/
structure SwupdateDevice where
  swupdate : OcSwupdate
  scheduled : List Nat
  deriving DecidableEq

/-- `oc_swupdate_default` -/
def SwupdateDevice.default : SwupdateDevice :=
  ⟨⟨none, none, some (ascii "vendor"), .idle, .idle, 0, 0, 0⟩, []⟩

/-- A POST with the readings of the clock while it is validated, copied and
scheduled; `allocated` tells whether there is memory for a timed callback. -/
structure SwupdatePost where
  rep : Rep
  now : Nat
  copyTime : Nat
  scheduleTime : Nat
  allocated : Bool

/-- `oc_swupdate_action_schedule`; `none` when its assertion fails. -/
def ocSwupdateActionSchedule (scheduleAt scheduleTime : Nat)
    (allocated : Bool) (device : SwupdateDevice) : Option SwupdateDevice :=
  if device.scheduled ≠ [] then none
  else if !allocated then some device
  else some { device with scheduled := device.scheduled ++
    [if scheduleAt > scheduleTime then scheduleAt - scheduleTime else 0] }

/-- `oc_ri_remove_timed_event_callback` removes the first callback. -/
def swupdateExecuteAction (post : SwupdatePost) (device : SwupdateDevice) :
    Option SwupdateDevice :=
  let device := { device with scheduled := device.scheduled.tail }
  if device.swupdate.swupdateaction = .idle ∨
      device.swupdate.updatetime = 0 then some device
  else ocSwupdateActionSchedule device.swupdate.updatetime post.scheduleTime
    post.allocated device

/-- `swupdate_resource_post`; the first component is whether the payload is
accepted. -/
def swupdateResourcePost (env : SwupdateEnv) (post : SwupdatePost)
    (device : SwupdateDevice) : Bool × Option SwupdateDevice :=
  match ocSwupdateDecode env .post post.now post.copyTime post.rep
      device.swupdate with
  | (false, _) => (false, some device)
  | (true, swupdate) =>
      (true, swupdateExecuteAction post { device with swupdate := swupdate })

/-- The text that the last property with a name has. -/
def lastText (name : Bytes) : Rep → Option Bytes
  | [] => none
  | entry :: rep =>
      (lastText name rep).or
        (match entry with
        | (other, .string value) => if other = name then some value else none
        | _ => none)

def Lacks (rep : Rep) (name : Bytes) : Prop :=
  ∀ entry ∈ rep, entry.1 ≠ name

/-- An action that is not idle next to an empty package URL. -/
def EmptyPurlAction (rep : Rep) (purl : Bytes) : Prop :=
  lastText (ascii "purl") rep = some purl ∧ isEmptyText purl = true ∧
    ∃ text action, lastText (ascii "swupdateaction") rep = some text ∧
      ocSwupdateActionFromStr text = some action ∧ action ≠ .idle

/-- Only the properties of the payload are changed, and with an action an
empty package URL leaves the previous one. -/
structure ChangesOnly (rep : Rep) (before after : OcSwupdate) : Prop where
  purl : Lacks rep (ascii "purl") → after.purl = before.purl
  nv : Lacks rep (ascii "nv") → after.nv = before.nv
  signage : Lacks rep (ascii "signed") → after.signage = before.signage
  swupdateaction : Lacks rep (ascii "swupdateaction") →
    after.swupdateaction = before.swupdateaction
  swupdatestate : Lacks rep (ascii "swupdatestate") →
    after.swupdatestate = before.swupdatestate
  swupdateresult : Lacks rep (ascii "swupdateresult") →
    after.swupdateresult = before.swupdateresult
  lastupdate : Lacks rep (ascii "lastupdate") →
    after.lastupdate = before.lastupdate
  updatetime : Lacks rep (ascii "updatetime") →
    after.updatetime = before.updatetime
  previous : ∀ purl, EmptyPurlAction rep purl → before.purl.isSome = true →
    after.purl = before.purl

/-- What a request does to the state of a device. -/
structure AnswersPost (env : SwupdateEnv) (post : SwupdatePost)
    (device : SwupdateDevice) : Prop where
  rejected : (swupdateResourcePost env post device).1 = false →
    (swupdateResourcePost env post device).2 = some device ∧
      ocSwupdateDecode env .post post.now post.copyTime post.rep
        device.swupdate = (false, device.swupdate)
  validated : ∀ onError,
    ocSwupdateValidateUpdate env post.now onError post.rep device.swupdate =
      (swupdateResourcePost env post device).1
  accepted : (swupdateResourcePost env post device).1 = true →
    ChangesOnly post.rep device.swupdate
      (ocSwupdateDecode env .post post.now post.copyTime post.rep
        device.swupdate).2

/-- At most one action is scheduled, and one if there is an action and a
time for it. -/
structure SwupdateDevice.Consistent (device : SwupdateDevice) : Prop where
  single : device.scheduled.length ≤ 1
  scheduled : device.scheduled ≠ [] ↔
    device.swupdate.swupdateaction ≠ .idle ∧ device.swupdate.updatetime ≠ 0

section Acceptance

variable {env : SwupdateEnv} {flags : SwupdateFlags} {rep : Rep}
  {decode decoded : SwupdateDecode} {now : Nat} {hasPurl : Bool}

/-- All properties are decoded, one after the other. -/
def decodeAll (env : SwupdateEnv) (flags : SwupdateFlags) :
    Rep → SwupdateDecode → Option SwupdateDecode
  | [], decode => some decode
  | entry :: rep, decode =>
      match swupdateDecodeProperty env flags entry decode with
      | .ok decode => decodeAll env flags rep decode
      | .error _ => none

theorem swupdateDecodeLoop_invalid {onError : SwupdateOnError}
    {call last : Nat} {isValid : Bool}
    (done : swupdateDecodeLoop env flags onError rep call false decode =
      some (last, isValid, decoded)) : isValid = false := by
  induction rep generalizing call decode with
  | nil =>
      rw [swupdateDecodeLoop] at done
      cases done
      rfl
  | cons entry rep ih =>
      rw [swupdateDecodeLoop] at done
      split at done
      · exact ih done
      · split_ifs at done
        · exact ih done
        · exact ih done

theorem swupdateDecodeLoop_valid_iff (strict : flags.ignoreErrors = false)
    (onError : SwupdateOnError) (call last : Nat) :
    swupdateDecodeLoop env flags onError rep call true decode =
        some (last, true, decoded) ↔
      decodeAll env flags rep decode = some decoded ∧ last = call := by
  induction rep generalizing decode with
  | nil =>
      simp only [swupdateDecodeLoop, decodeAll, Option.some.injEq,
        Prod.mk.injEq, true_and]
      exact ⟨fun ⟨calls, same⟩ => ⟨same, calls.symm⟩,
        fun ⟨same, calls⟩ => ⟨calls.symm, same⟩⟩
  | cons entry rep ih =>
      rw [swupdateDecodeLoop, decodeAll]
      cases swupdateDecodeProperty env flags entry decode with
      | ok decode => exact ih
      | error error =>
          simp only [strict, Bool.false_eq_true, if_false, reduceCtorEq,
            false_and, iff_false]
          split_ifs
          · intro done
            cases done
          · intro done
            exact Bool.noConfusion (swupdateDecodeLoop_invalid done)

theorem swupdateValidateDecodedData_iff (skip : Bool)
    (onError : SwupdateOnError) (call : Nat) :
    swupdateValidateDecodedData env now skip onError call decode = true ↔
      swupdateValidateUpdatetime now decode = none ∧
        (skip = true ∨ swupdateValidatePackageUrl env decode = none) := by
  unfold swupdateValidateDecodedData
  cases swupdateValidateUpdatetime now decode with
  | none =>
      cases skip
      · cases swupdateValidatePackageUrl env decode
        all_goals simp
      · simp
  | some error =>
      cases swupdateValidatePackageUrl env decode
      all_goals simp

theorem swupdateDecode_post_iff (onError : SwupdateOnError) :
    swupdateDecode env .post now hasPurl onError rep = some decoded ↔
      decodeAll env .post rep .zero = some decoded ∧
        swupdateValidateUpdatetime now decoded = none ∧
          (skipsPurlValidation hasPurl decoded = true ∨
            swupdateValidatePackageUrl env decoded = none) := by
  have loop := fun decoded last => @swupdateDecodeLoop_valid_iff env .post rep
    .zero decoded rfl onError 0 last
  unfold swupdateDecode
  constructor
  · intro accepted
    split at accepted
    · cases accepted
    · rename_i call isValid decode ran
      cases isValid
      · cases accepted
      · simp only [SwupdateFlags.post, Bool.not_true, Bool.false_eq_true,
          if_false] at accepted
        split_ifs at accepted with valid
        cases accepted
        exact ⟨((loop _ _).mp ran).1,
          (swupdateValidateDecodedData_iff _ _ _).mp valid⟩
  · rintro ⟨all, valid⟩
    rw [(loop decoded 0).mpr ⟨all, rfl⟩]
    simp only [SwupdateFlags.post, Bool.not_true, Bool.false_eq_true, if_false]
    rw [if_pos ((swupdateValidateDecodedData_iff _ _ _).mpr valid)]

theorem ocSwupdateValidateUpdate_eq (onError : SwupdateOnError)
    (swupdate : OcSwupdate) :
    ocSwupdateValidateUpdate env now onError rep swupdate =
      ocSwupdateValidateUpdate env now none rep swupdate := by
  unfold ocSwupdateValidateUpdate
  rw [Bool.eq_iff_iff, Option.isSome_iff_exists, Option.isSome_iff_exists]
  simp only [swupdateDecode_post_iff]

end Acceptance

section Decoded

variable {env : SwupdateEnv} {rep : Rep} {decode decoded : SwupdateDecode}

theorem swupdateDecodeProperty_post {entry : Bytes × RepValue}
    (ok : swupdateDecodeProperty env .post entry decode = .ok decoded) :
    (∃ text action, entry = (ascii "swupdateaction", .string text) ∧
        ocSwupdateActionFromStr text = some action ∧
        decoded = { decode with swupdateaction := some action }) ∨
      (∃ text time, entry = (ascii "updatetime", .string text) ∧
        decoded = { decode with updatetime := time }) ∨
      ∃ text, entry = (ascii "purl", .string text) ∧
        decoded = { decode with purl := some text } := by
  obtain ⟨name, value⟩ := entry
  cases value
  case int value =>
    unfold swupdateDecodeProperty swupdateDecodeIntProperty at ok
    simp only [SwupdateFlags.post, Bool.not_false, if_true] at ok
    split_ifs at ok
  case string text =>
    unfold swupdateDecodeProperty swupdateDecodeStringProperty at ok
    simp only [SwupdateFlags.post, Bool.not_false, if_true] at ok
    split_ifs at ok with nv signed action state last time purl
    · subst action
      split at ok
      · cases ok
      · rename_i action isAction
        cases ok
        exact .inl ⟨text, action, rfl, isAction, rfl⟩
    · subst time
      unfold swupdateDecodeUpdateTime at ok
      simp only [Bool.not_false, true_and] at ok
      split_ifs at ok
      · cases ok
        exact .inr (.inl ⟨text, _, rfl, rfl⟩)
      · cases ok
        exact .inr (.inl ⟨text, _, rfl, rfl⟩)
      · split at ok
        · cases ok
        · cases ok
          exact .inr (.inl ⟨text, _, rfl, rfl⟩)
    · subst purl
      cases ok
      exact .inr (.inr ⟨text, rfl, rfl⟩)
  all_goals cases ok

theorem lastText_same (name text : Bytes) (rep : Rep) :
    lastText name ((name, .string text) :: rep) =
      (lastText name rep).or (some text) := by
  rw [lastText]
  simp only [if_true]

theorem lastText_other {name other text : Bytes} {rep : Rep}
    (different : other ≠ name) :
    lastText name ((other, .string text) :: rep) = lastText name rep := by
  rw [lastText]
  simp only [if_neg different, Option.or_none]

theorem lastText_of_lacks {name : Bytes} {rep : Rep} (lacks : Lacks rep name) :
    lastText name rep = none := by
  induction rep with
  | nil => rfl
  | cons entry rep ih =>
      obtain ⟨other, value⟩ := entry
      have different : other ≠ name := lacks _ List.mem_cons_self
      have later := ih fun entry member =>
        lacks entry (List.mem_cons_of_mem _ member)
      cases value
      case string text => rw [lastText_other different, later]
      all_goals exact (Option.or_none).trans later

/-- What was decoded by the properties of a payload. -/
structure DecodesTo (rep : Rep) (decode decoded : SwupdateDecode) :
    Prop where
  purl : decoded.purl = (lastText (ascii "purl") rep).or decode.purl
  action : decoded.swupdateaction =
    ((lastText (ascii "swupdateaction") rep).bind
      ocSwupdateActionFromStr).or decode.swupdateaction
  time : Lacks rep (ascii "updatetime") →
    decoded.updatetime = decode.updatetime
  others : decoded.nv = decode.nv ∧ decoded.signage = decode.signage ∧
    decoded.swupdatestate = decode.swupdatestate ∧
    decoded.swupdateresult = decode.swupdateresult ∧
    decoded.lastupdate = decode.lastupdate
  actions : ∀ text, lastText (ascii "swupdateaction") rep = some text →
    (ocSwupdateActionFromStr text).isSome = true

theorem decodesTo_of_decodeAll
    (all : decodeAll env .post rep decode = some decoded) :
    DecodesTo rep decode decoded := by
  induction rep generalizing decode with
  | nil =>
      cases all
      exact ⟨rfl, rfl, fun _ => rfl, ⟨rfl, rfl, rfl, rfl, rfl⟩,
        fun _ none => by cases none⟩
  | cons entry rep ih =>
      rw [decodeAll] at all
      split at all
      · rename_i next ok
        have later := ih all
        rcases swupdateDecodeProperty_post ok with
          ⟨text, action, rfl, isAction, rfl⟩ | ⟨text, time, rfl, rfl⟩ |
            ⟨text, rfl, rfl⟩
        · refine ⟨?_, ?_, ?_, later.others, ?_⟩
          · rw [later.purl, lastText_other (by decide)]
          · rw [later.action, lastText_same]
            cases found : lastText (ascii "swupdateaction") rep with
            | none => simp [isAction]
            | some last =>
                obtain ⟨action, known⟩ :=
                  Option.isSome_iff_exists.mp (later.actions last found)
                simp [known]
          · intro lacks
            exact later.time fun entry member =>
              lacks entry (List.mem_cons_of_mem _ member)
          · intro last found
            rw [lastText_same] at found
            cases before : lastText (ascii "swupdateaction") rep with
            | none =>
                rw [before] at found
                cases found
                rw [isAction]
                rfl
            | some text =>
                rw [before] at found
                cases found
                exact later.actions _ before
        · refine ⟨?_, ?_, ?_, later.others, ?_⟩
          · rw [later.purl, lastText_other (by decide)]
          · rw [later.action, lastText_other (by decide)]
          · intro lacks
            exact absurd rfl (lacks _ List.mem_cons_self)
          · intro last found
            rw [lastText_other (by decide)] at found
            exact later.actions last found
        · refine ⟨?_, ?_, ?_, later.others, ?_⟩
          · rw [later.purl, lastText_same]
            cases lastText (ascii "purl") rep
            all_goals rfl
          · rw [later.action, lastText_other (by decide)]
          · intro lacks
            exact later.time fun entry member =>
              lacks entry (List.mem_cons_of_mem _ member)
          · intro last found
            rw [lastText_other (by decide)] at found
            exact later.actions last found
      · cases all

theorem DecodesTo.changesOnly {copyTime : Nat} {before : OcSwupdate}
    (decodes : DecodesTo rep .zero decoded)
    (kept : ∀ purl, EmptyPurlAction rep purl → before.purl.isSome = true →
      before.purl = some purl) :
    ChangesOnly rep before (swupdateDecodeCopy copyTime decoded before) := by
  obtain ⟨purl, action, time, ⟨nv, signage, state, result, last⟩, -⟩ := decodes
  simp only [SwupdateDecode.zero, Option.or_none] at purl action nv signage
  simp only [SwupdateDecode.zero] at state result last time
  refine ⟨?_, ?_, ?_, ?_, ?_, ?_, ?_, ?_, ?_⟩
  · intro lacks
    rw [swupdateDecodeCopy, purl, lastText_of_lacks lacks, Option.none_or]
  · intro _
    rw [swupdateDecodeCopy, nv, Option.none_or]
  · intro _
    rw [swupdateDecodeCopy, signage, Option.none_or]
  · intro lacks
    rw [swupdateDecodeCopy, action, lastText_of_lacks lacks]
    rfl
  · intro _
    rw [swupdateDecodeCopy, state]
    rfl
  · intro _
    rw [swupdateDecodeCopy, result]
    rfl
  · intro _
    rw [swupdateDecodeCopy, last]
    rfl
  · intro lacks
    rw [swupdateDecodeCopy, time lacks]
  · intro empty special some
    rw [swupdateDecodeCopy, purl, special.1, kept empty special some]
    rfl

end Decoded

/-- An accepted payload puts an empty package URL in the place of another
one. -/
def OverwritesPurl (env : SwupdateEnv) (post : SwupdatePost)
    (device : SwupdateDevice) : Prop :=
  ocSwupdateValidateUpdate env post.now none post.rep device.swupdate = true ∧
    ∃ purl previous, EmptyPurlAction post.rep purl ∧
      device.swupdate.purl = some previous ∧ previous ≠ purl

section Requests

variable {env : SwupdateEnv} {post : SwupdatePost} {device : SwupdateDevice}

theorem swupdateResourcePost_fst :
    (swupdateResourcePost env post device).1 =
      ocSwupdateValidateUpdate env post.now none post.rep
        device.swupdate := by
  unfold swupdateResourcePost ocSwupdateDecode ocSwupdateValidateUpdate
  cases swupdateDecode env .post post.now device.swupdate.purl.isSome none
    post.rep
  all_goals rfl

theorem exists_decode_of_accepted
    (accepted : ocSwupdateValidateUpdate env post.now none post.rep
      device.swupdate = true) :
    ∃ decoded, DecodesTo post.rep .zero decoded ∧
      ocSwupdateDecode env .post post.now post.copyTime post.rep
        device.swupdate =
          (true, swupdateDecodeCopy post.copyTime decoded device.swupdate) := by
  obtain ⟨decoded, found⟩ := Option.isSome_iff_exists.mp accepted
  refine ⟨decoded, decodesTo_of_decodeAll
    ((swupdateDecode_post_iff none).mp found).1, ?_⟩
  rw [ocSwupdateDecode, found]

theorem answersPost_iff :
    AnswersPost env post device ↔ ¬OverwritesPurl env post device := by
  constructor
  · rintro answers ⟨accepted, purl, previous, special, before, different⟩
    obtain ⟨decoded, decodes, copied⟩ := exists_decode_of_accepted accepted
    have changes := answers.accepted (swupdateResourcePost_fst.trans accepted)
    have kept := changes.previous purl special (by rw [before]; rfl)
    rw [copied, swupdateDecodeCopy, decodes.purl, special.1, before] at kept
    exact different (Option.some.inj kept).symm
  · intro spares
    refine ⟨?_, ?_, ?_⟩
    · intro rejected
      unfold swupdateResourcePost ocSwupdateDecode at rejected ⊢
      cases found : swupdateDecode env .post post.now
        device.swupdate.purl.isSome none post.rep with
      | none => exact ⟨rfl, rfl⟩
      | some decoded =>
          rw [found] at rejected
          cases rejected
    · intro onError
      rw [ocSwupdateValidateUpdate_eq, swupdateResourcePost_fst]
    · intro accepted
      rw [swupdateResourcePost_fst] at accepted
      obtain ⟨decoded, decodes, copied⟩ := exists_decode_of_accepted accepted
      rw [copied]
      refine decodes.changesOnly fun purl special some => ?_
      obtain ⟨previous, before⟩ := Option.isSome_iff_exists.mp some
      rw [before]
      by_contra different
      exact spares ⟨accepted, purl, previous, special, before,
        fun same => different (congrArg _ same)⟩

/-- The state after requests; `none` when an assertion failed. -/
def swupdateRun (env : SwupdateEnv) (device : SwupdateDevice)
    (posts : List SwupdatePost) : Option SwupdateDevice :=
  runFrom (fun state post => state.bind fun device =>
    (swupdateResourcePost env post device).2) (some device) posts

theorem consistent_swupdateExecuteAction
    (single : device.scheduled.length ≤ 1) (room : post.allocated = true) :
    ∃ after, swupdateExecuteAction post device = some after ∧
      after.Consistent := by
  obtain ⟨swupdate, scheduled⟩ := device
  have removed : scheduled.tail = [] := by
    rw [← List.length_eq_zero_iff, List.length_tail]
    exact Nat.sub_eq_zero_of_le single
  unfold swupdateExecuteAction
  simp only [removed]
  split_ifs with nothing
  · refine ⟨_, rfl, Nat.zero_le _, iff_of_false (not_not.mpr rfl) ?_⟩
    rintro ⟨action, time⟩
    rcases nothing with idle | none
    · exact action idle
    · exact time none
  · rw [ocSwupdateActionSchedule, if_neg (not_not.mpr rfl), room]
    exact ⟨_, rfl, Nat.le_refl _,
      iff_of_true (List.cons_ne_nil _ _) (not_or.mp nothing)⟩

theorem consistent_of_accepted (single : device.scheduled.length ≤ 1)
    (room : post.allocated = true)
    (accepted : (swupdateResourcePost env post device).1 = true) :
    ∃ after, (swupdateResourcePost env post device).2 = some after ∧
      after.Consistent := by
  rw [swupdateResourcePost_fst] at accepted
  obtain ⟨decoded, -, copied⟩ := exists_decode_of_accepted accepted
  rw [swupdateResourcePost, copied]
  exact consistent_swupdateExecuteAction single room

theorem consistent_swupdateResourcePost (consistent : device.Consistent)
    (room : post.allocated = true) :
    ∃ after, (swupdateResourcePost env post device).2 = some after ∧
      after.Consistent := by
  cases accepted : (swupdateResourcePost env post device).1 with
  | true => exact consistent_of_accepted consistent.single room accepted
  | false =>
      refine ⟨device, ?_, consistent⟩
      unfold swupdateResourcePost at accepted ⊢
      split
      · rfl
      · rename_i found
        rw [found] at accepted
        cases accepted

theorem consistent_swupdateRun {posts : List SwupdatePost}
    (consistent : device.Consistent)
    (room : ∀ post ∈ posts, post.allocated = true) :
    ∃ after, swupdateRun env device posts = some after ∧
      after.Consistent := by
  induction posts generalizing device with
  | nil => exact ⟨device, rfl, consistent⟩
  | cons post posts ih =>
      rw [List.forall_mem_cons] at room
      obtain ⟨next, stepped, consistentNext⟩ :=
        @consistent_swupdateResourcePost env post device consistent room.1
      obtain ⟨after, ran, consistentAfter⟩ := ih consistentNext room.2
      refine ⟨after, ?_, consistentAfter⟩
      rw [swupdateRun, runFrom_cons, Option.bind_some, stepped]
      exact ran

end Requests

theorem consistent_default : SwupdateDevice.default.Consistent :=
  ⟨Nat.zero_le _, iff_of_false (not_not.mpr rfl) fun both => both.1 rfl⟩

/-- A request is answered as expected unless it is accepted and overwrites a
package URL with an empty one; while there is memory for the callback, the
actions are scheduled as expected in every run. -/
def SwupdateContract (env : SwupdateEnv) : Prop :=
  (∀ post device, AnswersPost env post device ↔
    ¬OverwritesPurl env post device) ∧
  ∀ posts, (∀ post ∈ posts, post.allocated = true) →
    (∃ after, swupdateRun env .default posts = some after ∧
      after.Consistent) ∧
    (∀ device : SwupdateDevice, device.Consistent →
      ∃ after, swupdateRun env device posts = some after ∧ after.Consistent)

theorem swupdate_contract (env : SwupdateEnv) : SwupdateContract env :=
  ⟨fun _ _ => answersPost_iff, fun _ room =>
    ⟨consistent_swupdateRun consistent_default room,
      fun _ consistent => consistent_swupdateRun consistent room⟩⟩

theorem swupdate_contract_refused :
    AnswersPost ⟨fun _ => none, none⟩ ⟨[], 1, 1, 1, true⟩ .default := by
  refine ((swupdate_contract _).1 _ _).mpr ?_
  rintro ⟨accepted, -⟩
  revert accepted
  decide

/-- An availability check with an empty package URL loses the previous one. -/
theorem not_answersPost_emptyPurl :
    ¬∀ env post device, AnswersPost env post device := by
  intro every
  have answers := every ⟨fun _ => none, some fun _ => 0⟩
    ⟨[(ascii "purl", .string []),
      (ascii "swupdateaction", .string (ascii "isac")),
      (ascii "updatetime", .string (ascii "none"))], 1, 1, 1, true⟩
    ⟨⟨some (ascii "https://test.package.com"), none, none, .idle, .idle, 0, 0,
      0⟩, []⟩
  have kept := (answers.accepted (by decide)).previous []
    ⟨by decide, by decide, ascii "isac", .isac, by decide, by decide,
      by decide⟩ rfl
  revert kept
  decide

end IotivityLite
