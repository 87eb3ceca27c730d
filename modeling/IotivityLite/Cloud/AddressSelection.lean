import IotivityLite.Cloud.EndpointAddresses
import IotivityLite.Foundation.Rotation
import IotivityLite.Foundation.Run

/-!
# The selected endpoint address

The list of `oc_endpoint_address.c` with its pointer to the selected element
and what the callback for a changed selection gets to see.  The storage of a
removed element is used again, so an element is told apart by the number of
the allocation that made it.
-/

namespace IotivityLite

inductive AddressMetadata where
  | uuid (id : Uuid)
  | name (text : Option Bytes)
  deriving DecidableEq

/-- `oc_endpoint_address_view_t` -/
structure AddressView where
  uri : Bytes
  metadata : AddressMetadata
  deriving DecidableEq

/-- `oc_endpoint_address_t` -/
structure AddressItem where
  /-- the pointer to the element -/
  serial : Nat
  uri : Bytes
  metadata : AddressMetadata
  deriving DecidableEq

/-- `oc_endpoint_addresses_t` -/
structure AddressList where
  addresses : List AddressItem
  selected : Option Nat
  /-- `on_selected_change.cb` is set. -/
  callback : Bool
  /-- how many elements were allocated so far -/
  allocated : Nat
  deriving DecidableEq

/-- The list after a call, and the lists that the callback saw. -/
structure SelectionResult (α : Type) where
  list : AddressList
  seen : List AddressList
  result : α

namespace AddressList

/-- The pointers to the elements in order. -/
def serials (list : AddressList) : List Nat :=
  list.addresses.map (·.serial)

def withSelected (list : AddressList) (selected : Option Nat) : AddressList :=
  ⟨list.addresses, selected, list.callback, list.allocated⟩

def withAddresses (list : AddressList) (addresses : List AddressItem) :
    AddressList :=
  ⟨addresses, list.selected, list.callback, list.allocated⟩

/-- One more element was allocated. -/
def countAllocation (list : AddressList) : AddressList :=
  ⟨list.addresses, list.selected, list.callback, list.allocated + 1⟩

def endpointAddressSelect (list : AddressList) (selected : Option Nat) :
    SelectionResult Bool :=
  if list.selected = selected then ⟨list, [], false⟩
  else
    let list := list.withSelected selected
    ⟨list, if list.callback then [list] else [], true⟩

/-- `memory`: the element, its URI and its name could be allocated. -/
def endpointAddressAllocateAndAdd (limits : AddressLimits)
    (list : AddressList) (view : AddressView) (memory : Bool) :
    SelectionResult (Option Nat) :=
  if !EndpointAddresses.isValid limits view.uri || !memory then
    ⟨list, [], none⟩
  else
    let item : AddressItem := ⟨list.allocated, view.uri, view.metadata⟩
    let list := list.countAllocation
    -- the element is selected before it is in the list
    let chosen :=
      if list.selected = none then list.endpointAddressSelect (some item.serial)
      else ⟨list, [], false⟩
    ⟨chosen.list.withAddresses (chosen.list.addresses ++ [item]),
      chosen.seen, some item.serial⟩

/-- `oc_endpoint_addresses_init` -/
def init (limits : AddressLimits) (list : AddressList) (callback : Bool)
    (defaultEa : AddressView) (memory : Bool) : SelectionResult Bool :=
  let list : AddressList := ⟨[], none, callback, list.allocated⟩
  if 0 < defaultEa.uri.length then
    let added := list.endpointAddressAllocateAndAdd limits defaultEa memory
    ⟨added.list, added.seen, added.result.isSome⟩
  else ⟨list, [], true⟩

/-- `oc_endpoint_addresses_deinit` -/
def deinit (list : AddressList) : AddressList :=
  ⟨[], none, list.callback, list.allocated⟩

/-- `oc_endpoint_addresses_reinit` -/
def reinit (limits : AddressLimits) (list : AddressList)
    (defaultEa : AddressView) (memory : Bool) : SelectionResult Bool :=
  list.deinit.init limits list.callback defaultEa memory

/-- `oc_endpoint_addresses_find` -/
def find (list : AddressList) (uri : Bytes) : Option Nat :=
  (list.addresses.find? (·.uri == uri)).map (·.serial)

/-- `oc_endpoint_addresses_contains` -/
def contains (list : AddressList) (uri : Bytes) : Bool :=
  list.addresses.any (·.uri == uri)

/-- `oc_endpoint_addresses_add` -/
def add (limits : AddressLimits) (list : AddressList) (view : AddressView)
    (memory : Bool) : SelectionResult (Option Nat) :=
  if !EndpointAddresses.isValid limits view.uri then ⟨list, [], none⟩
  else if list.contains view.uri then ⟨list, [], none⟩
  else list.endpointAddressAllocateAndAdd limits view memory

/-- `oc_endpoint_addresses_remove` -/
def remove (list : AddressList) (serial : Nat) : SelectionResult Bool :=
  let eamNext := (Around.behind list.serials serial).head?
  if serial ∈ list.serials then
    let list :=
      list.withAddresses (list.addresses.eraseP (·.serial == serial))
    if list.selected = some serial then
      let chosen :=
        list.endpointAddressSelect (eamNext.or list.serials.head?)
      ⟨chosen.list, chosen.seen, true⟩
    else ⟨list, [], true⟩
  else ⟨list, [], false⟩

/-- `oc_endpoint_addresses_remove_by_uri` -/
def removeByUri (list : AddressList) (uri : Bytes) : SelectionResult Bool :=
  match list.find uri with
  | none => ⟨list, [], false⟩
  | some serial => list.remove serial

/-- `oc_endpoint_addresses_clear` -/
def clear (list : AddressList) : SelectionResult Bool :=
  (list.withAddresses []).endpointAddressSelect none

/-- `oc_endpoint_addresses_select` -/
def select (list : AddressList) (serial : Nat) : SelectionResult Bool :=
  if serial ∈ list.serials then
    let chosen := list.endpointAddressSelect (some serial)
    ⟨chosen.list, chosen.seen, true⟩
  else ⟨list, [], false⟩

/-- `oc_endpoint_addresses_select_by_uri` -/
def selectByUri (list : AddressList) (uri : Bytes) : SelectionResult Bool :=
  match list.find uri with
  | none => ⟨list, [], false⟩
  | some serial =>
      let chosen := list.endpointAddressSelect (some serial)
      ⟨chosen.list, chosen.seen, true⟩

/-- `oc_endpoint_addresses_select_next` -/
def selectNext (list : AddressList) : SelectionResult Bool :=
  match list.selected with
  | none => ⟨list, [], false⟩
  | some serial =>
      list.endpointAddressSelect (Around.next list.serials serial)

end AddressList

inductive AddressCall where
  | init (callback : Bool) (defaultEa : AddressView) (memory : Bool)
  | reinit (defaultEa : AddressView) (memory : Bool)
  | add (view : AddressView) (memory : Bool)
  | remove (serial : Nat)
  | removeByUri (uri : Bytes)
  | clear
  | select (serial : Nat)
  | selectByUri (uri : Bytes)
  | selectNext
  deriving DecidableEq

namespace AddressList

/-- The list after a call, and the lists that the callback saw. -/
def call (limits : AddressLimits) (list : AddressList) :
    AddressCall → AddressList × List AddressList
  | .init callback defaultEa memory =>
      let called := list.init limits callback defaultEa memory
      (called.list, called.seen)
  | .reinit defaultEa memory =>
      let called := list.reinit limits defaultEa memory
      (called.list, called.seen)
  | .add view memory =>
      let called := list.add limits view memory
      (called.list, called.seen)
  | .remove serial => ((list.remove serial).list, (list.remove serial).seen)
  | .removeByUri uri =>
      ((list.removeByUri uri).list, (list.removeByUri uri).seen)
  | .clear => (list.clear.list, list.clear.seen)
  | .select serial => ((list.select serial).list, (list.select serial).seen)
  | .selectByUri uri =>
      ((list.selectByUri uri).list, (list.selectByUri uri).seen)
  | .selectNext => (list.selectNext.list, list.selectNext.seen)

def step (limits : AddressLimits) (list : AddressList) (called : AddressCall) :
    AddressList :=
  (list.call limits called).1

/-- Storage before the first `oc_endpoint_addresses_init`. -/
def blank : AddressList := ⟨[], none, false, 0⟩

/-- The elements are different ones with different and valid URIs. -/
structure Linked (limits : AddressLimits) (list : AddressList) : Prop where
  distinctUris : (list.addresses.map (·.uri)).Nodup
  validUris : ∀ item ∈ list.addresses,
    EndpointAddresses.isValid limits item.uri = true
  distinctSerials : list.serials.Nodup
  bounded : ∀ serial ∈ list.serials, serial < list.allocated

/-- Nothing is selected exactly in the empty list, otherwise an element is. -/
structure Selects (list : AddressList) (selected : Option Nat) : Prop where
  none_iff : selected = none ↔ list.addresses = []
  mem : ∀ serial, selected = some serial → serial ∈ list.serials

structure Sound (limits : AddressLimits) (list : AddressList) : Prop where
  linked : list.Linked limits
  selects : list.Selects list.selected

/-- As many calls of `select_next` as there are elements visit each of them
once and come back to the first one. -/
structure GoesAround (list : AddressList) : Prop where
  visits : ((List.range list.addresses.length).map fun count =>
      ((fun list => (selectNext list).list)^[count] list).selected).Perm
    (list.serials.map some)
  returns :
    (fun list => (selectNext list).list)^[list.addresses.length] list = list

/-- When the callback runs in a call: once where another element is selected
than before, never where the selection is what it was, at most once in any
case; and it sees a list that is sound. -/
structure Notifies (limits : AddressLimits) (before after : AddressList)
    (seen : List AddressList) : Prop where
  once : after.callback = true → ∀ serial, after.selected = some serial →
    before.selected ≠ some serial → seen.length = 1
  unchanged : after.selected = before.selected → seen = []
  atMostOnce : seen.length ≤ 1
  sound : ∀ list ∈ seen, Sound limits list

/-- The call puts a first element into the list, and there is a callback. -/
def AddsFirst (limits : AddressLimits) (list : AddressList) :
    AddressCall → Prop
  | .init callback defaultEa memory =>
      callback = true ∧
        EndpointAddresses.isValid limits defaultEa.uri = true ∧ memory = true
  | .reinit defaultEa memory =>
      list.callback = true ∧
        EndpointAddresses.isValid limits defaultEa.uri = true ∧ memory = true
  | .add view memory =>
      list.addresses = [] ∧ list.callback = true ∧
        EndpointAddresses.isValid limits view.uri = true ∧ memory = true
  | _ => False

variable {limits : AddressLimits} {list before after : AddressList}
  {seen : List AddressList}

/-- The callback saw the list after the call, if the selection changed. -/
structure Reports (before after : AddressList) (seen : List AddressList) :
    Prop where
  callback : after.callback = before.callback
  seen_eq : seen =
    if before.callback = true ∧ after.selected ≠ before.selected then [after]
    else []

theorem Reports.notifies (reports : Reports before after seen)
    (sound : Sound limits after) : Notifies limits before after seen where
  once called serial selected other := by
    rw [reports.callback] at called
    rw [reports.seen_eq, if_pos ⟨called, fun same => other (by
      rw [← same, selected])⟩]
    rfl
  unchanged same := by
    rw [reports.seen_eq, if_neg fun changed => changed.2 same]
  atMostOnce := by
    rw [reports.seen_eq]
    split <;> simp
  sound other member := by
    rw [reports.seen_eq] at member
    split at member
    · rw [List.mem_singleton] at member
      rwa [member]
    · simp at member

theorem Reports.refl (list : AddressList) : Reports list list [] where
  callback := rfl
  seen_eq := by simp

theorem Reports.congr {other : AddressList}
    (reports : Reports before after seen)
    (callback : other.callback = before.callback)
    (selected : other.selected = before.selected) :
    Reports other after seen where
  callback := reports.callback.trans callback.symm
  seen_eq := by rw [reports.seen_eq, callback, selected]

theorem reports_endpointAddressSelect (list : AddressList)
    (selected : Option Nat) :
    Reports list (list.endpointAddressSelect selected).list
      (list.endpointAddressSelect selected).seen := by
  unfold endpointAddressSelect
  by_cases same : list.selected = selected
  · rw [if_pos same]
    exact Reports.refl list
  · rw [if_neg same]
    refine ⟨rfl, ?_⟩
    have changed : (list.withSelected selected).selected ≠ list.selected :=
      fun equal => same equal.symm
    simp only [changed, ne_eq, not_false_eq_true, and_true]
    rfl

theorem list_endpointAddressSelect (list : AddressList)
    (selected : Option Nat) :
    (list.endpointAddressSelect selected).list =
      list.withSelected selected := by
  unfold endpointAddressSelect
  by_cases same : list.selected = selected
  · rw [if_pos same, ← same]
    rfl
  · rw [if_neg same]

variable {selected : Option Nat}

theorem sound_endpointAddressSelect (linked : list.Linked limits)
    (selects : list.Selects selected) :
    Sound limits (list.endpointAddressSelect selected).list := by
  rw [list_endpointAddressSelect]
  exact ⟨⟨linked.distinctUris, linked.validUris, linked.distinctSerials,
    linked.bounded⟩, selects.none_iff, selects.mem⟩

theorem linked_nil {selected : Option Nat} {callback : Bool}
    {allocated : Nat} :
    Linked limits ⟨[], selected, callback, allocated⟩ where
  distinctUris := List.nodup_nil
  validUris := by simp
  distinctSerials := List.nodup_nil
  bounded := by simp [serials]

variable {allocated : Nat} {callback : Bool}

theorem selects_nil :
    Selects ⟨[], selected, callback, allocated⟩ none where
  none_iff := by simp
  mem := by simp

theorem serials_eraseP (list : AddressList) (serial : Nat) :
    (list.withAddresses
      (list.addresses.eraseP (·.serial == serial))).serials =
        list.serials.erase serial := by
  unfold serials
  rw [List.erase_eq_eraseP', List.eraseP_map]
  rfl

theorem Linked.eraseP (linked : list.Linked limits)
    (removed : AddressItem → Bool) :
    (list.withAddresses (list.addresses.eraseP removed)).Linked limits where
  distinctUris :=
    linked.distinctUris.sublist (List.eraseP_sublist.map _)
  validUris item member :=
    linked.validUris item (List.mem_of_mem_eraseP member)
  distinctSerials :=
    linked.distinctSerials.sublist (List.eraseP_sublist.map _)
  bounded serial member :=
    linked.bounded serial ((List.eraseP_sublist.map _).subset member)

variable {view : AddressView}

theorem Linked.append (linked : list.Linked limits)
    (valid : EndpointAddresses.isValid limits view.uri = true)
    (new : list.contains view.uri = false) (selected : Option Nat) :
    Linked limits ⟨list.addresses ++
      [⟨list.allocated, view.uri, view.metadata⟩], selected, list.callback,
        list.allocated + 1⟩ where
  distinctUris := by
    rw [List.map_append, List.nodup_append]
    refine ⟨linked.distinctUris, by simp, ?_⟩
    rintro uri member other last rfl
    have same : uri = view.uri := by simpa using last
    subst same
    obtain ⟨item, inside, equal⟩ := List.mem_map.mp member
    unfold contains at new
    have differs := List.any_eq_false.mp new item inside
    exact differs (beq_iff_eq.mpr equal)
  validUris item member := by
    rcases List.mem_append.mp member with earlier | last
    · exact linked.validUris item earlier
    · rw [List.mem_singleton.mp last]
      exact valid
  distinctSerials := by
    show ((list.addresses ++ [_]).map _).Nodup
    rw [List.map_append, List.nodup_append]
    refine ⟨linked.distinctSerials, by simp, ?_⟩
    rintro serial member other last rfl
    have same : serial = list.allocated := by simpa using last
    have below := linked.bounded serial member
    omega
  bounded serial member := by
    have member : serial ∈ (list.addresses ++ [_]).map _ := member
    rw [List.map_append, List.mem_append] at member
    show serial < list.allocated + 1
    rcases member with earlier | last
    · exact Nat.lt_succ_of_lt (linked.bounded serial earlier)
    · have same : serial = list.allocated := by simpa using last
      omega

theorem sound_nil : Sound limits ⟨[], none, callback, allocated⟩ :=
  ⟨linked_nil, selects_nil⟩

theorem allocateAndAdd_nil {memory callback : Bool}
    (valid : EndpointAddresses.isValid limits view.uri = true)
    (room : memory = true) :
    endpointAddressAllocateAndAdd limits ⟨[], none, callback, allocated⟩ view
        memory =
      ⟨⟨[⟨allocated, view.uri, view.metadata⟩], some allocated, callback,
          allocated + 1⟩,
        if callback then [⟨[], some allocated, callback, allocated + 1⟩]
        else [],
        some allocated⟩ := by
  subst room
  unfold endpointAddressAllocateAndAdd
  rw [valid]
  rfl

theorem allocateAndAdd_of_not {memory : Bool}
    (refused : ¬ (EndpointAddresses.isValid limits view.uri = true ∧
      memory = true)) :
    list.endpointAddressAllocateAndAdd limits view memory =
      ⟨list, [], none⟩ := by
  unfold endpointAddressAllocateAndAdd
  rw [if_pos]
  by_contra accepted
  simp only [Bool.or_eq_true, Bool.not_eq_true', not_or,
    Bool.not_eq_false] at accepted
  exact refused accepted

theorem allocateAndAdd_of_selected {memory : Bool}
    (valid : EndpointAddresses.isValid limits view.uri = true)
    (room : memory = true) (selected : list.selected ≠ none) :
    list.endpointAddressAllocateAndAdd limits view memory =
      ⟨⟨list.addresses ++ [⟨list.allocated, view.uri, view.metadata⟩],
          list.selected, list.callback, list.allocated + 1⟩, [],
        some list.allocated⟩ := by
  subst room
  unfold endpointAddressAllocateAndAdd
  rw [valid, if_neg (by simp)]
  have other : list.countAllocation.selected ≠ none := selected
  simp only [if_neg other]
  rfl

theorem notifies_first_iff {item : AddressItem} :
    Notifies limits before ⟨[item], some allocated, callback, allocated + 1⟩
        (if callback then [⟨[], some allocated, callback, allocated + 1⟩]
        else []) ↔
      ¬ callback = true := by
  cases callback with
  | false =>
      refine iff_of_true ?_ (by simp)
      exact ⟨by simp, fun _ => rfl, by simp, by simp⟩
  | true =>
      refine iff_of_false (fun notifies => ?_) (by simp)
      have sound := notifies.sound _ (List.mem_singleton_self _)
      have selected := sound.selects.none_iff.mpr rfl
      simp at selected

theorem sound_singleton
    (valid : EndpointAddresses.isValid limits view.uri = true) :
    Sound limits ⟨[⟨allocated, view.uri, view.metadata⟩], some allocated,
      callback, allocated + 1⟩ where
  linked :=
    (@linked_nil limits none callback allocated).append valid rfl
      (some allocated)
  selects := by
    refine ⟨by simp, ?_⟩
    intro serial selected
    rw [← Option.some_inj.mp selected]
    exact List.mem_singleton_self _

/-- What a call leaves and whether its callback is right. -/
structure Meets (limits : AddressLimits) (before : AddressList)
    (called : AddressList × List AddressList) (addsFirst : Prop) : Prop where
  sound : Sound limits called.1
  notifies_iff : Notifies limits before called.1 called.2 ↔ ¬ addsFirst

theorem Reports.meets (reports : Reports before after seen)
    (sound : Sound limits after) {addsFirst : Prop} (other : ¬ addsFirst) :
    Meets limits before (after, seen) addsFirst :=
  ⟨sound, iff_of_true (reports.notifies sound) other⟩

theorem meets_init (limits : AddressLimits) (before list : AddressList)
    (callback : Bool) (defaultEa : AddressView) (memory : Bool) :
    Meets limits before
      ((list.init limits callback defaultEa memory).list,
        (list.init limits callback defaultEa memory).seen)
      (callback = true ∧
        EndpointAddresses.isValid limits defaultEa.uri = true ∧
        memory = true) := by
  have empty : Meets limits before
      (⟨[], none, callback, list.allocated⟩, []) False :=
    ⟨sound_nil, iff_of_true
      ⟨by simp, fun _ => rfl, by simp, by simp⟩ id⟩
  unfold init
  by_cases some : 0 < defaultEa.uri.length
  · simp only [if_pos some]
    by_cases accepted :
        EndpointAddresses.isValid limits defaultEa.uri = true ∧ memory = true
    · rw [allocateAndAdd_nil accepted.1 accepted.2]
      refine ⟨sound_singleton accepted.1, ?_⟩
      rw [notifies_first_iff]
      exact not_congr (by simp [accepted])
    · rw [allocateAndAdd_of_not accepted]
      refine ⟨empty.sound, iff_of_true (empty.notifies_iff.mpr id) ?_⟩
      exact fun all => accepted all.2
  · simp only [if_neg some]
    refine ⟨empty.sound, iff_of_true (empty.notifies_iff.mpr id) ?_⟩
    rintro ⟨-, valid, -⟩
    unfold EndpointAddresses.isValid at valid
    simp only [Bool.and_eq_true, decide_eq_true_eq] at valid
    exact some valid.1

theorem meets_add (sound : Sound limits list) (view : AddressView)
    (memory : Bool) :
    Meets limits list
      ((list.add limits view memory).list, (list.add limits view memory).seen)
      (list.addresses = [] ∧ list.callback = true ∧
        EndpointAddresses.isValid limits view.uri = true ∧
        memory = true) := by
  unfold add
  by_cases valid : EndpointAddresses.isValid limits view.uri = true
  · rw [if_neg (by simp [valid])]
    cases inside : list.contains view.uri with
    | true =>
        rw [if_pos rfl]
        refine (Reports.refl list).meets sound ?_
        rintro ⟨empty, -⟩
        unfold contains at inside
        rw [empty] at inside
        simp at inside
    | false =>
        rw [if_neg (by simp)]
        by_cases room : memory = true
        · by_cases first : list.selected = none
          · have empty := sound.selects.none_iff.mp first
            obtain ⟨addresses, selected, callback, allocated⟩ := list
            have empty : addresses = [] := empty
            have first : selected = none := first
            subst empty first
            rw [allocateAndAdd_nil valid room]
            refine ⟨sound_singleton valid, ?_⟩
            rw [notifies_first_iff]
            exact not_congr (by simp [valid, room])
          · rw [allocateAndAdd_of_selected valid room first]
            have some : list.addresses ≠ [] :=
              fun empty => first (sound.selects.none_iff.mpr empty)
            have reports : Reports list ⟨list.addresses ++
                [⟨list.allocated, view.uri, view.metadata⟩], list.selected,
                  list.callback, list.allocated + 1⟩ [] := ⟨rfl, by simp⟩
            refine reports.meets ⟨?_, ?_, ?_⟩ fun all => some all.1
            · exact sound.linked.append valid inside list.selected
            · exact iff_of_false first (by simp)
            · intro serial selected
              show serial ∈ (list.addresses ++ [_]).map _
              rw [List.map_append]
              exact List.mem_append_left _ (sound.selects.mem serial selected)
        · rw [allocateAndAdd_of_not (fun both => room both.2)]
          exact (Reports.refl list).meets sound
            fun all => room all.2.2.2
  · rw [if_pos (by simp [valid])]
    exact (Reports.refl list).meets sound fun all => valid all.2.2.1

variable {serial : Nat}

theorem find_mem {uri : Bytes} (found : list.find uri = some serial) :
    serial ∈ list.serials := by
  obtain ⟨item, here, rfl⟩ := Option.map_eq_some_iff.mp found
  exact List.mem_map_of_mem (List.mem_of_find?_eq_some here)

theorem ne_nil_of_mem_serials (member : serial ∈ list.serials) :
    list.addresses ≠ [] := by
  intro empty
  unfold serials at member
  rw [empty] at member
  simp at member

theorem selects_of_mem (member : serial ∈ list.serials) :
    list.Selects (some serial) where
  none_iff := iff_of_false (by simp) (ne_nil_of_mem_serials member)
  mem other same := by
    rw [← Option.some_inj.mp same]
    exact member

theorem meets_endpointAddressSelect (linked : list.Linked limits)
    (selects : list.Selects selected)
    (callback : before.callback = list.callback)
    (same : before.selected = list.selected) :
    Meets limits before
      ((list.endpointAddressSelect selected).list,
        (list.endpointAddressSelect selected).seen) False :=
  ((reports_endpointAddressSelect list selected).congr callback same).meets
    (sound_endpointAddressSelect linked selects) id

theorem selects_replacement (member : serial ∈ list.serials) :
    (list.withAddresses
      (list.addresses.eraseP (·.serial == serial))).Selects
        (Around.replacement list.serials serial) where
  none_iff := by
    rw [Around.replacement_eq_none_iff member, ← serials_eraseP]
    exact List.map_eq_nil_iff
  mem other replaced := by
    rw [serials_eraseP]
    exact Around.mem_erase_of_replacement member replaced

theorem selects_of_eraseP (sound : Sound limits list)
    (member : serial ∈ list.serials) (other : list.selected ≠ some serial) :
    (list.withAddresses
      (list.addresses.eraseP (·.serial == serial))).Selects
        list.selected := by
  have kept : ∀ selected, list.selected = some selected →
      selected ∈ (list.withAddresses
        (list.addresses.eraseP (·.serial == serial))).serials := by
    intro selected here
    rw [serials_eraseP]
    refine (List.mem_erase_of_ne ?_).mpr (sound.selects.mem selected here)
    rintro rfl
    exact other here
  refine ⟨?_, kept⟩
  cases here : list.selected with
  | none =>
      have empty := sound.selects.none_iff.mp here
      exact (ne_nil_of_mem_serials member empty).elim
  | some selected =>
      exact iff_of_false (by simp)
        (ne_nil_of_mem_serials (kept selected here))

theorem meets_remove (sound : Sound limits list) (serial : Nat) :
    Meets limits list ((list.remove serial).list, (list.remove serial).seen)
      False := by
  unfold remove
  by_cases member : serial ∈ list.serials
  · simp only [if_pos member]
    by_cases selected : list.selected = some serial
    · have here : (list.withAddresses
          (list.addresses.eraseP (·.serial == serial))).selected =
            some serial := selected
      simp only [if_pos here]
      rw [serials_eraseP]
      exact meets_endpointAddressSelect (sound.linked.eraseP _)
        (selects_replacement member) rfl rfl
    · have here : (list.withAddresses
          (list.addresses.eraseP (·.serial == serial))).selected ≠
            some serial := selected
      simp only [if_neg here]
      have reports : Reports list (list.withAddresses
          (list.addresses.eraseP (·.serial == serial))) [] :=
        ⟨rfl, (if_neg fun changed => changed.2 rfl).symm⟩
      exact reports.meets ⟨sound.linked.eraseP _,
        selects_of_eraseP sound member selected⟩ id
  · simp only [if_neg member]
    exact (Reports.refl list).meets sound id

theorem meets_removeByUri (sound : Sound limits list) (uri : Bytes) :
    Meets limits list
      ((list.removeByUri uri).list, (list.removeByUri uri).seen) False := by
  unfold removeByUri
  cases list.find uri with
  | none => exact (Reports.refl list).meets sound id
  | some serial => exact meets_remove sound serial

theorem meets_clear (list : AddressList) :
    Meets limits list (list.clear.list, list.clear.seen) False := by
  unfold clear
  exact meets_endpointAddressSelect linked_nil selects_nil rfl rfl

theorem meets_select (sound : Sound limits list) (serial : Nat) :
    Meets limits list ((list.select serial).list, (list.select serial).seen)
      False := by
  unfold select
  by_cases member : serial ∈ list.serials
  · simp only [if_pos member]
    exact meets_endpointAddressSelect sound.linked (selects_of_mem member)
      rfl rfl
  · simp only [if_neg member]
    exact (Reports.refl list).meets sound id

theorem meets_selectByUri (sound : Sound limits list) (uri : Bytes) :
    Meets limits list
      ((list.selectByUri uri).list, (list.selectByUri uri).seen) False := by
  unfold selectByUri
  cases found : list.find uri with
  | none => exact (Reports.refl list).meets sound id
  | some serial =>
      exact meets_endpointAddressSelect sound.linked
        (selects_of_mem (find_mem found)) rfl rfl

theorem meets_selectNext (sound : Sound limits list) :
    Meets limits list (list.selectNext.list, list.selectNext.seen) False := by
  unfold selectNext
  cases selected : list.selected with
  | none => exact (Reports.refl list).meets sound id
  | some serial =>
      obtain ⟨other, member, next⟩ :=
        Around.exists_next (sound.selects.mem serial selected)
      simp only [next]
      exact meets_endpointAddressSelect sound.linked (selects_of_mem member)
        rfl rfl

theorem meets_call (sound : Sound limits list) (called : AddressCall) :
    Meets limits list (list.call limits called)
      (list.AddsFirst limits called) := by
  cases called with
  | init callback defaultEa memory =>
      exact meets_init limits list list callback defaultEa memory
  | reinit defaultEa memory =>
      exact meets_init limits list list.deinit list.callback defaultEa memory
  | add view memory => exact meets_add sound view memory
  | remove serial => exact meets_remove sound serial
  | removeByUri uri => exact meets_removeByUri sound uri
  | clear => exact meets_clear list
  | select serial => exact meets_select sound serial
  | selectByUri uri => exact meets_selectByUri sound uri
  | selectNext => exact meets_selectNext sound

theorem list_selectNext (list : AddressList) :
    list.selectNext.list =
      list.withSelected (Around.step list.serials list.selected) := by
  unfold selectNext
  cases selected : list.selected with
  | none =>
      show list = list.withSelected none
      rw [← selected]
      rfl
  | some serial => exact list_endpointAddressSelect list _

theorem iterate_selectNext (list : AddressList) (count : Nat) :
    (fun list => (selectNext list).list)^[count] list =
      list.withSelected
        ((Around.step list.serials)^[count] list.selected) := by
  induction count with
  | zero => rfl
  | succ count ih =>
      rw [Function.iterate_succ_apply', Function.iterate_succ_apply', ih,
        list_selectNext]
      rfl

theorem Sound.goesAround (sound : Sound limits list) : GoesAround list := by
  have size : list.addresses.length = list.serials.length :=
    (List.length_map _).symm
  cases selected : list.selected with
  | none =>
      have empty := sound.selects.none_iff.mp selected
      constructor
      · unfold serials
        rw [empty]
        exact List.Perm.refl _
      · rw [empty]
        rfl
  | some serial =>
      have member := sound.selects.mem serial selected
      constructor
      · simp only [iterate_selectNext, size, selected]
        exact Around.perm_visited sound.linked.distinctSerials member
      · rw [iterate_selectNext, size, selected,
          Around.iterate_step_length sound.linked.distinctSerials member,
          ← selected]
        rfl

/-- The list after the call is sound and can be gone around, and the callback
ran as it should. -/
structure CallContract (limits : AddressLimits) (list : AddressList)
    (called : AddressCall) : Prop where
  sound : Sound limits (list.call limits called).1
  goesAround : GoesAround (list.call limits called).1
  notifies : Notifies limits list (list.call limits called).1
    (list.call limits called).2

/-- Every call of the run does what it should. -/
def SelectionContract (limits : AddressLimits) (calls : List AddressCall) :
    Prop :=
  Along (step limits) (CallContract limits) blank calls

theorem Meets.contract_iff {called : AddressCall}
    (meets : Meets limits list (list.call limits called)
      (list.AddsFirst limits called)) :
    CallContract limits list called ↔ ¬ list.AddsFirst limits called := by
  rw [← meets.notifies_iff]
  constructor
  · exact CallContract.notifies
  · exact fun notifies => ⟨meets.sound, meets.sound.goesAround, notifies⟩

theorem sound_blank (limits : AddressLimits) : Sound limits blank := sound_nil

end AddressList

open AddressList in
/-- In every run the list is sound and can be gone around after each call, and
the callback is right except where a first element is added; so a run without
such a call is right altogether. -/
theorem address_selection (limits : AddressLimits) (callback : Bool)
    (defaultEa : AddressView) (memory : Bool) (calls : List AddressCall) :
    Along (step limits)
        (fun list called =>
          Sound limits (list.call limits called).1 ∧
          GoesAround (list.call limits called).1 ∧
          (CallContract limits list called ↔ ¬ list.AddsFirst limits called))
        blank (.init callback defaultEa memory :: calls) ∧
      (SelectionContract limits (.init callback defaultEa memory :: calls) ↔
        Along (step limits)
          (fun list called => ¬ list.AddsFirst limits called)
          blank (.init callback defaultEa memory :: calls)) := by
  have kept : ∀ list called, Sound limits list →
      Sound limits (list.step limits called) := by
    intro list called sound
    exact (meets_call sound called).sound
  constructor
  · rw [along_iff_forall_append]
    intro first called rest _
    have meets := meets_call
      (invariant_runFrom first (sound_blank limits) kept) called
    exact ⟨meets.sound, meets.sound.goesAround, meets.contract_iff⟩
  · refine Along.congr_iff_of_invariant (sound_blank limits) ?_ ?_
    · exact fun list called sound => (meets_call sound called).contract_iff
    · exact fun list called sound _ => kept list called sound

open AddressList in
/-- With a callback and a default address the first call is wrong. -/
theorem not_selectionContract_default :
    ¬ SelectionContract ⟨64, none⟩
      [.init true ⟨ascii "coaps+tcp://127.0.0.1", .name none⟩ true] := by
  rintro ⟨contract, -⟩
  have sound := contract.notifies.sound _ (List.mem_singleton_self _)
  exact Option.some_ne_none _ (sound.selects.none_iff.mpr rfl)

end IotivityLite
