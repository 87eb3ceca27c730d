import IotivityLite.Etag.Storage
import Mathlib.Algebra.GroupWithZero.Nat
import Mathlib.Logic.Function.Iterate
import Mathlib.Tactic.SplitIfs

/-!
# ETags across a restart

The load takes the larger of the clock and of the ETags that it can restore,
and goes on from there.  An ETag whose resource is gone, has another checksum
or was never dumped does not count.
-/

namespace IotivityLite

/-- All readings of the clock are between two values. -/
def EtagWorld.Within (world : EtagWorld) (start latest : UInt64) : Prop :=
  ∀ call, start ≤ world.clockTime call ∧ world.clockTime call ≤ latest

section Source

variable {world : EtagWorld} {source : EtagSource} {start latest : UInt64}

theorem etagRandom_bounds (world : EtagWorld) (call : Nat) :
    1 ≤ (etagRandom world call).toNat ∧
      (etagRandom world call).toNat ≤ 1000 := by
  have below : (world.randomValue call % 1000).toNat < 1000 := by
    rw [UInt32.toNat_mod]
    exact Nat.mod_lt _ (by decide)
  have sum : (etagRandom world call).toNat =
      (world.randomValue call % 1000).toNat + 1 := by
    unfold etagRandom
    rw [UInt64.toNat_add, UInt32.toNat_toUInt64]
    exact Nat.mod_eq_of_lt (by
      change (world.randomValue call % 1000).toNat + 1 < 2 ^ 64
      omega)
  omega

theorem toNat_ocEtagSetGlobal_of_pos {etag : UInt64} (positive : 0 < etag.toNat) :
    (ocEtagSetGlobal etag).toNat = etag.toNat := by
  unfold ocEtagSetGlobal
  rw [if_neg]
  rintro rfl
  exact absurd positive (by decide)

theorem toNat_ocEtagSetGlobal_le {etag : UInt64} {bound : Nat}
    (below : etag.toNat ≤ bound) (positive : 1 ≤ bound) :
    (ocEtagSetGlobal etag).toNat ≤ bound := by
  unfold ocEtagSetGlobal
  split_ifs
  · exact positive
  · exact below

/-- The later of the clock and the global ETag. -/
def laterEtag (world : EtagWorld) (source : EtagSource) : Nat :=
  max (world.clockTime source.calls).toNat source.globalEtag.toNat

theorem toNat_ocEtagGet_of_lt
    (fits : laterEtag world source +
      (etagRandom world source.calls).toNat < 2 ^ 64) :
    (ocEtagGet world source).globalEtag.toNat =
      laterEtag world source + (etagRandom world source.calls).toNat := by
  have random := etagRandom_bounds world source.calls
  unfold laterEtag at fits ⊢
  unfold ocEtagGet
  simp only
  split_ifs with later
  · rw [gt_iff_lt, UInt64.lt_iff_toNat_lt] at later
    rw [Nat.max_eq_left (by omega)] at fits ⊢
    rw [toNat_ocEtagSetGlobal_of_pos, UInt64.toNat_add,
      Nat.mod_eq_of_lt fits]
    rw [UInt64.toNat_add, Nat.mod_eq_of_lt fits]
    omega
  · rw [gt_iff_lt, UInt64.lt_iff_toNat_lt] at later
    rw [Nat.max_eq_right (by omega)] at fits ⊢
    rw [toNat_ocEtagSetGlobal_of_pos, UInt64.toNat_add,
      Nat.mod_eq_of_lt fits]
    rw [UInt64.toNat_add, Nat.mod_eq_of_lt fits]
    omega

theorem toNat_ocEtagGet_le :
    (ocEtagGet world source).globalEtag.toNat ≤
      laterEtag world source + (etagRandom world source.calls).toNat := by
  have random := etagRandom_bounds world source.calls
  unfold laterEtag ocEtagGet
  simp only
  apply toNat_ocEtagSetGlobal_le
  · rw [UInt64.toNat_add]
    refine Nat.le_trans (Nat.mod_le _ _) ?_
    split_ifs
    · omega
    · omega
  · omega

theorem toNat_ocEtagGet_le_of_overflow
    (overflows : 2 ^ 64 ≤ laterEtag world source +
      (etagRandom world source.calls).toNat) :
    (ocEtagGet world source).globalEtag.toNat ≤ 1000 := by
  have random := etagRandom_bounds world source.calls
  have clock := (world.clockTime source.calls).toNat_lt
  have etag := source.globalEtag.toNat_lt
  unfold laterEtag at overflows
  unfold ocEtagGet
  simp only
  apply toNat_ocEtagSetGlobal_le
  · rw [UInt64.toNat_add]
    split_ifs with later
    · rw [gt_iff_lt, UInt64.lt_iff_toNat_lt] at later
      omega
    · rw [gt_iff_lt, UInt64.lt_iff_toNat_lt] at later
      omega
  · decide

theorem iterate_ocEtagGet_bounds {bound : Nat}
    (within : world.Within start latest) (clock : latest.toNat ≤ bound)
    (below : source.globalEtag.toNat ≤ bound) (count : Nat)
    (fits : bound + 1000 * count < 2 ^ 64) :
    source.globalEtag.toNat + count ≤
        ((ocEtagGet world)^[count] source).globalEtag.toNat ∧
      ((ocEtagGet world)^[count] source).globalEtag.toNat ≤
        bound + 1000 * count := by
  induction count with
  | zero => exact ⟨Nat.le_refl _, by simpa using below⟩
  | succ count ih =>
      obtain ⟨lower, upper⟩ := ih (by omega)
      rw [Function.iterate_succ_apply']
      generalize (ocEtagGet world)^[count] source = reached at lower upper
      have random := etagRandom_bounds world reached.calls
      have reading := UInt64.le_iff_toNat_le.mp (within reached.calls).2
      have later : laterEtag world reached ≤ bound + 1000 * count ∧
          reached.globalEtag.toNat ≤ laterEtag world reached := by
        unfold laterEtag
        omega
      rw [toNat_ocEtagGet_of_lt (by omega)]
      omega

end Source

/-- The clock stands still and every random increment is the same. -/
def EtagWorld.steady (clock : UInt64) (random : UInt32) : EtagWorld :=
  ⟨fun _ => clock, fun _ => random⟩

section Steady

variable {start latest : UInt64} {source : EtagSource}

theorem within_steady (ordered : start ≤ latest) (random : UInt32) :
    (EtagWorld.steady start random).Within start latest :=
  fun _ => ⟨Nat.le_refl _, ordered⟩

theorem iterate_ocEtagGet_slowest (behind : start ≤ source.globalEtag)
    (count : Nat) (fits : source.globalEtag.toNat + count < 2 ^ 64) :
    ((ocEtagGet (.steady start 0))^[count] source).globalEtag.toNat =
      source.globalEtag.toNat + count := by
  have behind := UInt64.le_iff_toNat_le.mp behind
  induction count with
  | zero => rfl
  | succ count ih =>
      have reached := ih (by omega)
      rw [Function.iterate_succ_apply']
      generalize (ocEtagGet (.steady start 0))^[count] source = before
        at reached
      have one : (etagRandom (.steady start 0) before.calls).toNat = 1 := rfl
      have later : laterEtag (.steady start 0) before =
          source.globalEtag.toNat + count := by
        change max start.toNat before.globalEtag.toNat = _
        omega
      rw [toNat_ocEtagGet_of_lt (by omega), one, later]
      omega

theorem iterate_ocEtagGet_fastest {first : Nat}
    (ordered : start ≤ latest) (behind : latest.toNat ≤ first)
    (begun : source.globalEtag.toNat = first + 1000 ∨
      source.globalEtag.toNat ≤ latest.toNat + 1000) (count : Nat) :
    ((ocEtagGet (.steady start 999))^[count] source).globalEtag.toNat =
        first + 1000 * (count + 1) ∨
      ((ocEtagGet (.steady start 999))^[count] source).globalEtag.toNat ≤
        latest.toNat + 1000 * (count + 1) := by
  have ordered := UInt64.le_iff_toNat_le.mp ordered
  induction count with
  | zero => simpa using begun
  | succ count ih =>
      rw [Function.iterate_succ_apply']
      generalize (ocEtagGet (.steady start 999))^[count] source = before at ih
      have thousand :
          (etagRandom (.steady start 999) before.calls).toNat = 1000 := rfl
      have later : laterEtag (.steady start 999) before =
        max start.toNat before.globalEtag.toNat := rfl
      generalize EtagWorld.steady start 999 = world at thousand later ⊢
      rcases ih with reached | small
      · by_cases fits : laterEtag world before +
            (etagRandom world before.calls).toNat < 2 ^ 64
        · left
          rw [toNat_ocEtagGet_of_lt fits, thousand, later]
          omega
        · right
          have overflown := toNat_ocEtagGet_le_of_overflow
            (Nat.le_of_not_lt fits)
          refine Nat.le_trans overflown ?_
          omega
      · right
        refine Nat.le_trans toNat_ocEtagGet_le ?_
        rw [thousand, later]
        omega

end Steady

/-- The larger of an ETag and one that is restored. -/
def raiseEtag (etag stored : UInt64) : UInt64 :=
  if stored > etag then stored else etag

theorem le_foldl_raiseEtag (etag : UInt64) (stored : List UInt64) :
    etag ≤ stored.foldl raiseEtag etag ∧
      ∀ restored ∈ stored, restored ≤ stored.foldl raiseEtag etag := by
  induction stored generalizing etag with
  | nil => exact ⟨Nat.le_refl _, fun _ member => by cases member⟩
  | cons first rest ih =>
      obtain ⟨raised, others⟩ := ih (raiseEtag etag first)
      have both : etag ≤ raiseEtag etag first ∧
          first ≤ raiseEtag etag first := by
        unfold raiseEtag
        split_ifs with above
        · exact ⟨UInt64.le_of_lt above, Nat.le_refl _⟩
        · exact ⟨Nat.le_refl _, UInt64.not_lt.mp above⟩
      refine ⟨UInt64.le_trans both.1 raised, ?_⟩
      intro restored member
      rcases List.mem_cons.mp member with rfl | later
      · exact UInt64.le_trans both.2 raised
      · exact others restored later

theorem foldl_raiseEtag_mem (etag : UInt64) (stored : List UInt64) :
    stored.foldl raiseEtag etag = etag ∨
      stored.foldl raiseEtag etag ∈ stored := by
  induction stored generalizing etag with
  | nil => exact .inl rfl
  | cons first rest ih =>
      rcases ih (raiseEtag etag first) with same | later
      · rw [List.foldl_cons, same]
        unfold raiseEtag
        split_ifs
        · exact .inr List.mem_cons_self
        · exact .inl rfl
      · exact .inr (List.mem_cons_of_mem first later)

/-- The ETags that a store gives back to these resources. -/
def restoredEtags (store : Option EtagRep) (resources : List EtagResource) :
    List UInt64 :=
  resources.filterMap (EtagResource.stored (store.getD []))

def restoredDevices (storage : EtagStorage) (index : Nat) :
    List EtagDevice → List UInt64
  | [] => []
  | device :: devices =>
      restoredEtags (storage.device index) device.resources ++
        restoredDevices storage (index + 1) devices

/-- The ETags of stored entries whose resource exists with the stored
checksum. -/
def EtagState.restored (storage : EtagStorage) (state : EtagState) :
    List UInt64 :=
  restoredEtags storage.platform state.platform ++
    restoredDevices storage 0 state.devices

/-- The number of resources that the store has no ETag for. -/
def unrestored (store : Option EtagRep) (resources : List EtagResource) : Nat :=
  resources.countP
    (fun resource => (resource.stored (store.getD [])).isNone)

def unrestoredDevices (storage : EtagStorage) (index : Nat) :
    List EtagDevice → Nat
  | [] => 0
  | device :: devices =>
      (if device.canUpdate then
        unrestored (storage.device index) device.resources
      else 0) + unrestoredDevices storage (index + 1) devices

/-- The number of resources that get a new ETag from the load. -/
def EtagState.renewed (fromStorageOnly : Bool) (storage : EtagStorage)
    (state : EtagState) : Nat :=
  if fromStorageOnly then 0
  else unrestored storage.platform state.platform +
    unrestoredDevices storage 0 state.devices

section Loading

variable {world : EtagWorld} {storage : EtagStorage}

theorem etagStoreDecodeEtags_etag (rep : EtagRep) (update : Bool)
    (etag : UInt64) (resources : List EtagResource) :
    (etagStoreDecodeEtags rep update etag resources).1 =
      (resources.filterMap (EtagResource.stored rep)).foldl raiseEtag
        etag := by
  induction resources generalizing etag with
  | nil => rfl
  | cons resource resources ih =>
      unfold etagStoreDecodeEtags
      simp only
      rw [ih]
      unfold etagIterateUpdateResourcesByRep
      cases stored : resource.stored rep with
      | none => rw [List.filterMap_cons_none stored]
      | some value =>
          rw [List.filterMap_cons_some stored, List.foldl_cons]
          rfl

theorem stored_nil (resource : EtagResource) : resource.stored [] = none :=
  rfl

variable (store : Option EtagRep)

theorem loadEtags_etag (update : Bool) (etag : UInt64)
    (resources : List EtagResource) :
    (loadEtags store update etag resources).1 =
      (restoredEtags store resources).foldl raiseEtag etag := by
  cases store with
  | none =>
      have empty : restoredEtags none resources = [] := by
        unfold restoredEtags
        rw [List.filterMap_eq_nil_iff]
        exact fun resource _ => stored_nil resource
      rw [empty]
      rfl
  | some rep => exact etagStoreDecodeEtags_etag rep update etag resources

theorem restoredEtags_clear (resources : List EtagResource) :
    restoredEtags store (resources.map etagIterateClearEtag) =
      restoredEtags store resources := by
  unfold restoredEtags
  rw [List.filterMap_map]
  rfl

theorem loadDevices_etag (fromStorageOnly : Bool) (index : Nat)
    (etag : UInt64) (devices : List EtagDevice) :
    (loadDevices fromStorageOnly storage index etag devices).1 =
      (restoredDevices storage index devices).foldl raiseEtag etag := by
  induction devices generalizing index etag with
  | nil => rfl
  | cons device devices ih =>
      unfold loadDevices restoredDevices
      simp only
      rw [ih, loadEtags_etag, List.foldl_append]
      split_ifs
      · rw [restoredEtags_clear]
      · rfl

theorem updateEmptyEtags_source (source : EtagSource)
    (resources : List EtagResource) :
    (updateEmptyEtags world source resources).1 =
      (ocEtagGet world)^[resources.countP (·.etag == 0)] source := by
  induction resources generalizing source with
  | nil => rfl
  | cons resource resources ih =>
      unfold updateEmptyEtags
      by_cases empty : resource.etag = 0
      · rw [if_pos empty, List.countP_cons_of_pos (by simpa using empty),
          Function.iterate_succ_apply]
        exact ih (ocEtagGet world source)
      · rw [if_neg empty, List.countP_cons_of_neg (by simpa using empty)]
        exact ih source

/-- The number of resources without an ETag on devices that can be
updated. -/
def emptyEtags (devices : List EtagDevice) : Nat :=
  (devices.map fun device =>
    if device.canUpdate then device.resources.countP (·.etag == 0)
    else 0).sum

theorem updateEmptyDevices_source (source : EtagSource)
    (devices : List EtagDevice) :
    (updateEmptyDevices world source devices).1 =
      (ocEtagGet world)^[emptyEtags devices] source := by
  induction devices generalizing source with
  | nil => rfl
  | cons device devices ih =>
      unfold updateEmptyDevices emptyEtags
      rw [List.map_cons, List.sum_cons]
      by_cases canUpdate : device.canUpdate = true
      · rw [if_pos canUpdate, if_pos canUpdate, Nat.add_comm,
          Function.iterate_add_apply]
        simp only
        rw [ih, updateEmptyEtags_source]
        rfl
      · rw [if_neg canUpdate, if_neg canUpdate, Nat.zero_add]
        exact ih source

theorem stored_ne_zero {rep : EtagRep} {resource : EtagResource} {etag : UInt64}
    (stored : resource.stored rep = some etag) : etag ≠ 0 := by
  unfold EtagResource.stored at stored
  obtain ⟨entry, -, decoded⟩ := Option.bind_eq_some_iff.mp stored
  unfold ocEtagDecodeResourceEtag at decoded
  split at decoded
  · split_ifs at decoded with zero
    obtain rfl := Option.some.inj decoded
    exact zero
  · cases decoded

theorem countP_etagStoreDecodeEtags (rep : EtagRep) (etag : UInt64)
    (resources : List EtagResource) :
    (etagStoreDecodeEtags rep true etag
        (resources.map etagIterateClearEtag)).2.countP (·.etag == 0) =
      resources.countP (fun resource => (resource.stored rep).isNone) := by
  induction resources generalizing etag with
  | nil => rfl
  | cons resource resources ih =>
      rw [List.map_cons]
      unfold etagStoreDecodeEtags
      simp only
      rw [List.countP_cons, List.countP_cons, ih]
      congr 1
      unfold etagIterateUpdateResourcesByRep
      have same : (etagIterateClearEtag resource).stored rep =
        resource.stored rep := rfl
      rw [same]
      cases stored : resource.stored rep with
      | none => rfl
      | some value =>
          have kept := stored_ne_zero stored
          simp [kept]

theorem countP_loadEtags (etag : UInt64) (resources : List EtagResource) :
    (loadEtags store true etag
        (resources.map etagIterateClearEtag)).2.countP (·.etag == 0) =
      unrestored store resources := by
  cases store with
  | none =>
      unfold unrestored
      change (resources.map etagIterateClearEtag).countP (·.etag == 0) = _
      rw [List.countP_map]
      rfl
  | some rep => exact countP_etagStoreDecodeEtags rep etag resources

theorem emptyEtags_loadDevices (index : Nat) (etag : UInt64)
    (devices : List EtagDevice) :
    emptyEtags (loadDevices false storage index etag devices).2 =
      unrestoredDevices storage index devices := by
  induction devices generalizing index etag with
  | nil => rfl
  | cons device devices ih =>
      unfold loadDevices unrestoredDevices emptyEtags
      simp only
      rw [List.map_cons, List.sum_cons]
      have later := ih (index + 1) (loadEtags (storage.device index)
        device.canUpdate etag
        (if (!false && device.canUpdate) = true then
          device.resources.map etagIterateClearEtag
        else device.resources)).1
      unfold emptyEtags at later
      rw [later]
      by_cases canUpdate : device.canUpdate = true
      · rw [if_pos canUpdate, if_pos canUpdate, canUpdate]
        congr 1
        exact countP_loadEtags _ etag device.resources
      · rw [if_neg canUpdate, if_neg canUpdate]

/-- The source after the stores were read. -/
def loadedSource (world : EtagWorld) (storage : EtagStorage)
    (state : EtagState) : EtagSource :=
  ⟨ocEtagSetGlobal ((state.restored storage).foldl raiseEtag
      (ocEtagGet world state.source).globalEtag +
        etagRandom world (state.source.calls + 1)),
    state.source.calls + 2⟩

theorem ocEtagLoadFromStorage_source (fromStorageOnly : Bool)
    (state : EtagState) :
    (ocEtagLoadFromStorage world fromStorageOnly storage state).1.source =
      (ocEtagGet world)^[state.renewed fromStorageOnly storage]
        (loadedSource world storage state) := by
  have etag : ∀ platform, restoredEtags storage.platform platform =
        restoredEtags storage.platform state.platform →
      (loadDevices fromStorageOnly storage 0
        (loadEtags storage.platform true
          (ocEtagGet world state.source).globalEtag platform).1
        state.devices).1 =
      (state.restored storage).foldl raiseEtag
        (ocEtagGet world state.source).globalEtag := by
    intro platform same
    unfold EtagState.restored
    rw [loadDevices_etag, loadEtags_etag, List.foldl_append, same]
  unfold ocEtagLoadFromStorage EtagState.renewed loadedSource
  simp only
  cases fromStorageOnly with
  | true =>
      rw [if_pos rfl, if_pos rfl, if_pos rfl, etag state.platform rfl]
      rfl
  | false =>
      rw [if_neg Bool.false_ne_true, if_neg Bool.false_ne_true,
        if_neg Bool.false_ne_true]
      simp only
      rw [updateEmptyDevices_source, updateEmptyEtags_source,
        countP_loadEtags, emptyEtags_loadDevices,
        etag _ (restoredEtags_clear _ _),
        Nat.add_comm (unrestored storage.platform state.platform),
        Function.iterate_add_apply]
      rfl

end Loading

def EtagState.resources (state : EtagState) : List EtagResource :=
  state.platform ++ state.devices.flatMap (·.resources)

/-- A store holds this ETag. -/
def EtagStorage.Holds (storage : EtagStorage) (etag : UInt64) : Prop :=
  ∃ store rep, (store = storage.platform ∨ ∃ index, store =
    storage.device index) ∧ store = some rep ∧
      ∃ entry ∈ rep, entry.2.etag = some etag

section HandedOut

variable {storage : EtagStorage} {state : EtagState} {etag : UInt64}

theorem mem_of_mem_restoredEtags {store : Option EtagRep}
    {resources : List EtagResource}
    (restored : etag ∈ restoredEtags store resources) :
    ∃ rep, store = some rep ∧ ∃ entry ∈ rep, entry.2.etag = some etag := by
  obtain ⟨resource, -, stored⟩ := List.mem_filterMap.mp restored
  cases store with
  | none => cases stored
  | some rep =>
      refine ⟨rep, rfl, ?_⟩
      unfold EtagResource.stored at stored
      obtain ⟨entry, found, decoded⟩ := Option.bind_eq_some_iff.mp stored
      refine ⟨entry, List.mem_of_find?_eq_some found, ?_⟩
      unfold ocEtagDecodeResourceEtag at decoded
      split at decoded
      · split_ifs at decoded
        obtain rfl := Option.some.inj decoded
        assumption
      · cases decoded

theorem holds_of_restoredDevices {index : Nat} {devices : List EtagDevice}
    (restored : etag ∈ restoredDevices storage index devices) :
    storage.Holds etag := by
  induction devices generalizing index with
  | nil => cases restored
  | cons device devices ih =>
      rcases List.mem_append.mp restored with here | later
      · obtain ⟨rep, store, entry⟩ := mem_of_mem_restoredEtags here
        exact ⟨storage.device index, rep, .inr ⟨index, rfl⟩, store, entry⟩
      · exact ih later

theorem holds_of_restored (restored : etag ∈ state.restored storage) :
    storage.Holds etag := by
  rcases List.mem_append.mp restored with platform | device
  · obtain ⟨rep, store, entry⟩ := mem_of_mem_restoredEtags platform
    exact ⟨storage.platform, rep, .inl rfl, store, entry⟩
  · exact holds_of_restoredDevices device

theorem mem_etagStoreEncode {setup : EtagSetup}
    {resources : List EtagResource} {entry : Bytes × EtagEntry}
    (member : entry ∈ etagStoreEncode setup resources)
    (value : entry.2.etag = some etag) :
    ∃ resource ∈ resources, resource.etag ≠ 0 ∧ resource.etag = etag := by
  obtain ⟨resource, known, encoded⟩ := List.mem_filterMap.mp member
  refine ⟨resource, known, ?_⟩
  unfold etagIterateEncodeResource ocEtagEncodeResourceEtag at encoded
  split_ifs at encoded with ignored zero
  obtain ⟨crc64, -, rfl⟩ := Option.map_eq_some_iff.mp encoded
  exact ⟨zero, Option.some.inj value⟩

theorem holds_ocEtagDump {setup : EtagSetup} {saves : EtagSaves}
    (holds : (ocEtagDump setup saves state storage).1.Holds etag) :
    (∃ resource ∈ state.resources,
        resource.etag ≠ 0 ∧ resource.etag = etag) ∨
      storage.Holds etag := by
  obtain ⟨store, rep, which | ⟨index, which⟩, stored, entry, member, value⟩ :=
    holds
  · unfold ocEtagDump at which
    simp only at which
    split_ifs at which
    · obtain rfl := Option.some.inj (which.symm.trans stored)
      obtain ⟨resource, known, same⟩ := mem_etagStoreEncode member value
      exact .inl ⟨resource, List.mem_append_left _ known, same⟩
    · exact .inr ⟨store, rep, .inl which, stored, entry, member, value⟩
  · unfold ocEtagDump at which
    simp only at which
    have old : store = storage.device index →
        (∃ resource ∈ state.resources,
          resource.etag ≠ 0 ∧ resource.etag = etag) ∨
        storage.Holds etag :=
      fun same => .inr ⟨store, rep, .inr ⟨index, same⟩, stored, entry, member,
        value⟩
    cases found : state.devices[index]? with
    | none =>
        rw [found] at which
        exact old which
    | some device =>
        rw [found] at which
        simp only at which
        split_ifs at which
        · obtain rfl := Option.some.inj (which.symm.trans stored)
          obtain ⟨resource, known, same⟩ := mem_etagStoreEncode member value
          refine .inl ⟨resource, List.mem_append_right _ ?_, same⟩
          exact List.mem_flatMap.mpr
            ⟨device, List.mem_of_getElem? found, known⟩
        · exact old which

end HandedOut

section Restart

variable {world : EtagWorld} {storage : EtagStorage} {state : EtagState}
  {start latest : UInt64} {count : Nat}

/-- The largest ETag that the load has found when all stores are read. -/
def foundEtag (world : EtagWorld) (storage : EtagStorage)
    (state : EtagState) : UInt64 :=
  (state.restored storage).foldl raiseEtag
    (ocEtagGet world state.source).globalEtag

theorem first_ocEtagGet_bounds (within : world.Within start latest)
    (begun : state.source.globalEtag ≤ latest)
    (range : latest.toNat + 1000 < 2 ^ 64) :
    max start.toNat state.source.globalEtag.toNat + 1 ≤
        (ocEtagGet world state.source).globalEtag.toNat ∧
      (ocEtagGet world state.source).globalEtag.toNat ≤
        latest.toNat + 1000 := by
  have random := etagRandom_bounds world state.source.calls
  have low := UInt64.le_iff_toNat_le.mp (within state.source.calls).1
  have high := UInt64.le_iff_toNat_le.mp (within state.source.calls).2
  have known := UInt64.le_iff_toNat_le.mp begun
  have later : max start.toNat state.source.globalEtag.toNat ≤
        laterEtag world state.source ∧
      laterEtag world state.source ≤ latest.toNat := by
    unfold laterEtag
    omega
  rw [toNat_ocEtagGet_of_lt (by omega)]
  omega

theorem foundEtag_cases (within : world.Within start latest)
    (begun : state.source.globalEtag ≤ latest)
    (range : latest.toNat + 1000 < 2 ^ 64) :
    (foundEtag world storage state).toNat ≤ latest.toNat + 1000 ∨
      foundEtag world storage state ∈ state.restored storage := by
  rcases foldl_raiseEtag_mem (ocEtagGet world state.source).globalEtag
    (state.restored storage) with same | member
  · left
    unfold foundEtag
    rw [same]
    exact (first_ocEtagGet_bounds within begun range).2
  · exact .inr member

theorem loadedSource_etag :
    (loadedSource world storage state).globalEtag =
      ocEtagSetGlobal (foundEtag world storage state +
        etagRandom world (state.source.calls + 1)) := rfl

theorem loadedSource_etag_of_lt
    (fits : (foundEtag world storage state).toNat + 1000 < 2 ^ 64) :
    (loadedSource world storage state).globalEtag.toNat =
      (foundEtag world storage state).toNat +
        (etagRandom world (state.source.calls + 1)).toNat := by
  have random := etagRandom_bounds world (state.source.calls + 1)
  have sum : (foundEtag world storage state +
        etagRandom world (state.source.calls + 1)).toNat =
      (foundEtag world storage state).toNat +
        (etagRandom world (state.source.calls + 1)).toNat := by
    rw [UInt64.toNat_add, Nat.mod_eq_of_lt (by omega)]
  have positive : 0 < (foundEtag world storage state +
      etagRandom world (state.source.calls + 1)).toNat := by
    rw [sum]
    omega
  rw [← sum, loadedSource_etag]
  exact toNat_ocEtagSetGlobal_of_pos positive

theorem foundEtag_lt_iterate (within : world.Within start latest)
    (clock : latest.toNat + 1000 * (count + 1) < 2 ^ 64)
    (fits : (foundEtag world storage state).toNat + 1000 * (count + 1) <
      2 ^ 64) :
    (foundEtag world storage state).toNat + count + 1 ≤
      ((ocEtagGet world)^[count]
        (loadedSource world storage state)).globalEtag.toNat := by
  have once : 1000 ≤ 1000 * (count + 1) :=
    Nat.le_mul_of_pos_right 1000 (Nat.succ_pos count)
  have loaded := @loadedSource_etag_of_lt world storage state
    (Nat.lt_of_le_of_lt (Nat.add_le_add_left once _) fits)
  have random := etagRandom_bounds world (state.source.calls + 1)
  generalize (etagRandom world (state.source.calls + 1)).toNat = increment
    at random loaded
  generalize loadedSource world storage state = source at loaded ⊢
  generalize (foundEtag world storage state).toNat = found at fits loaded ⊢
  have advanced := @iterate_ocEtagGet_bounds world source start latest
    (max (found + 1000) latest.toNat) within (by omega) (by omega) count
    (by omega)
  omega

theorem overflowing_iterate (ordered : start ≤ latest)
    (behind : latest.toNat ≤
      (foundEtag (.steady start 999) storage state).toNat) :
    ((ocEtagGet (.steady start 999))^[count]
        (loadedSource (.steady start 999) storage state)).globalEtag.toNat =
        (foundEtag (.steady start 999) storage state).toNat +
          1000 * (count + 1) ∨
      ((ocEtagGet (.steady start 999))^[count]
        (loadedSource (.steady start 999) storage state)).globalEtag.toNat ≤
        latest.toNat + 1000 * (count + 1) := by
  apply iterate_ocEtagGet_fastest ordered behind
  have thousand : (etagRandom (.steady start 999)
    (state.source.calls + 1)).toNat = 1000 := rfl
  by_cases fits : (foundEtag (.steady start 999) storage state).toNat + 1000 <
      2 ^ 64
  · left
    rw [loadedSource_etag_of_lt fits, thousand]
  · right
    have range := (foundEtag (.steady start 999) storage state).toNat_lt
    have sum : (foundEtag (.steady start 999) storage state +
        etagRandom (.steady start 999) (state.source.calls + 1)).toNat ≤
          latest.toNat + 1000 := by
      rw [UInt64.toNat_add, thousand]
      generalize (foundEtag (.steady start 999) storage state).toNat = found
        at fits range
      omega
    rw [loadedSource_etag]
    refine toNat_ocEtagSetGlobal_le sum ?_
    exact Nat.le_trans (by decide) (Nat.le_add_left 1000 latest.toNat)

theorem slowest_iterate (begun : state.source.globalEtag ≤ latest)
    (ordered : start ≤ latest) (range : latest.toNat + 1000 < 2 ^ 64)
    (fits : (foundEtag (.steady start 0) storage state).toNat + 1000 +
      count < 2 ^ 64) :
    ((ocEtagGet (.steady start 0))^[count]
        (loadedSource (.steady start 0) storage state)).globalEtag.toNat =
      (foundEtag (.steady start 0) storage state).toNat + 1 + count := by
  have loaded := @loadedSource_etag_of_lt (.steady start 0) storage state
    (by omega)
  have one : (etagRandom (.steady start 0)
    (state.source.calls + 1)).toNat = 1 := rfl
  rw [one] at loaded
  clear one
  have first := first_ocEtagGet_bounds (within_steady ordered 0) begun range
  have raised := UInt64.le_iff_toNat_le.mp (le_foldl_raiseEtag
    (ocEtagGet (.steady start 0) state.source).globalEtag
    (state.restored storage)).1
  have behind : start ≤
      (loadedSource (.steady start 0) storage state).globalEtag := by
    rw [UInt64.le_iff_toNat_le, loaded]
    unfold foundEtag
    omega
  rw [iterate_ocEtagGet_slowest behind count (by omega), loaded]

private theorem thousands (count : Nat) : ∃ sum, 1000 * count = sum ∧
    1000 * (count + 1) = sum + 1000 ∧ 1000 * (count + 1 + 1) = sum + 2000 ∧
    1000 * (count + 2) = sum + 2000 ∧
    2000 * (count + 3) = 2 * sum + 6000 := by
  refine ⟨1000 * count, rfl, ?_, ?_, ?_, ?_⟩
  all_goals omega

theorem exceeded_of_reached (within : world.Within start latest)
    (begun : state.source.globalEtag ≤ latest)
    (range : latest.toNat + 2000 * (count + 3) ≤ 2 ^ 64)
    (fits : ∀ restored ∈ state.restored storage,
      restored.toNat + 1000 * (count + 2) < 2 ^ 64) {etag : UInt64}
    (reached : etag.toNat ≤
        max start.toNat state.source.globalEtag.toNat + count + 2 ∨
      ∃ restored ∈ state.restored storage,
        etag.toNat ≤ restored.toNat + count + 1) :
    etag.toNat ≤ ((ocEtagGet world)^[count]
        (loadedSource world storage state)).globalEtag.toNat ∧
      etag.toNat < ((ocEtagGet world)^[count + 1]
        (loadedSource world storage state)).globalEtag.toNat := by
  obtain ⟨sum, -, one, two, two', three⟩ := thousands count
  rw [three] at range
  rw [two'] at fits
  have first := first_ocEtagGet_bounds within begun (by omega)
  obtain ⟨raised, restoredBelow⟩ := le_foldl_raiseEtag
    (ocEtagGet world state.source).globalEtag (state.restored storage)
  have found : (foundEtag world storage state).toNat + (sum + 2000) <
      2 ^ 64 := by
    rcases @foundEtag_cases world storage state start latest within begun
      (by omega) with small | member
    · omega
    · exact fits _ member
  have below : etag.toNat ≤
      (foundEtag world storage state).toNat + count + 1 := by
    rcases reached with clock | ⟨restored, member, near⟩
    · have above := UInt64.le_iff_toNat_le.mp raised
      change _ ≤ (foundEtag world storage state).toNat at above
      omega
    · have above := UInt64.le_iff_toNat_le.mp (restoredBelow restored member)
      change _ ≤ (foundEtag world storage state).toNat at above
      omega
  have room : latest.toNat + (sum + 1000) < 2 ^ 64 ∧
      latest.toNat + (sum + 2000) < 2 ^ 64 ∧
      (foundEtag world storage state).toNat + (sum + 1000) < 2 ^ 64 := by
    clear one two two' three
    omega
  have now := @foundEtag_lt_iterate world storage state start latest count
    within (by rw [one]; exact room.1) (by rw [one]; exact room.2.2)
  have next := @foundEtag_lt_iterate world storage state start latest
    (count + 1) within (by rw [two]; exact room.2.1) (by rw [two]; exact found)
  clear one two two' three
  omega

theorem restored_lt_of_exceeded (ordered : start ≤ latest)
    (begun : state.source.globalEtag ≤ latest)
    (range : latest.toNat + 2000 * (count + 3) ≤ 2 ^ 64)
    (exceeded : ∀ world : EtagWorld, world.Within start latest →
      ∀ restored ∈ state.restored storage,
        restored.toNat < ((ocEtagGet world)^[count + 1]
          (loadedSource world storage state)).globalEtag.toNat)
    {restored : UInt64} (member : restored ∈ state.restored storage) :
    restored.toNat + 1000 * (count + 2) < 2 ^ 64 := by
  obtain ⟨sum, -, one, two, two', three⟩ := thousands count
  rw [three] at range
  rw [two']
  by_contra near
  have above := UInt64.le_iff_toNat_le.mp ((le_foldl_raiseEtag
    (ocEtagGet (.steady start 999) state.source).globalEtag
    (state.restored storage)).2 restored member)
  change _ ≤ (foundEtag (.steady start 999) storage state).toNat at above
  have within := within_steady ordered 999
  rcases @foundEtag_cases _ storage state _ _ within begun
    (by omega) with small | largest
  · omega
  · have larger := exceeded _ within _ largest
    have range' := ((ocEtagGet (.steady start 999))^[count + 1]
      (loadedSource (.steady start 999) storage state)).globalEtag.toNat_lt
    have reached := @overflowing_iterate storage state start latest (count + 1)
      ordered (by omega)
    rw [two] at reached
    generalize ((ocEtagGet (.steady start 999))^[count + 1] (loadedSource
      (.steady start 999) storage state)).globalEtag.toNat = next
      at larger reached range'
    omega

theorem reached_of_exceeded (ordered : start ≤ latest)
    (begun : state.source.globalEtag ≤ latest)
    (range : latest.toNat + 2000 * (count + 3) ≤ 2 ^ 64)
    (fits : ∀ restored ∈ state.restored storage,
      restored.toNat + 1000 * (count + 2) < 2 ^ 64) {etag : UInt64}
    (exceeded : etag.toNat ≤ ((ocEtagGet (.steady start 0))^[count]
      (loadedSource (.steady start 0) storage state)).globalEtag.toNat) :
    etag.toNat ≤
        max start.toNat state.source.globalEtag.toNat + count + 2 ∨
      ∃ restored ∈ state.restored storage,
        etag.toNat ≤ restored.toNat + count + 1 := by
  have enough : count ≤ 1000 * count :=
    Nat.le_mul_of_pos_left count (by decide)
  obtain ⟨sum, zero, one, two, two', three⟩ := thousands count
  rw [three] at range
  rw [two'] at fits
  rw [zero] at enough
  clear zero one two two' three
  have clock : latest.toNat + 1000 < 2 ^ 64 := by omega
  have room : ∀ found, found + (sum + 2000) < 2 ^ 64 →
      found + 1000 + count < 2 ^ 64 := by
    intro found near
    omega
  have known := UInt64.le_iff_toNat_le.mp begun
  have sorted := UInt64.le_iff_toNat_le.mp ordered
  have first : (ocEtagGet (.steady start 0) state.source).globalEtag.toNat =
      max start.toNat state.source.globalEtag.toNat + 1 := by
    have later : laterEtag (.steady start 0) state.source =
      max start.toNat state.source.globalEtag.toNat := rfl
    have one : (etagRandom (.steady start 0) state.source.calls).toNat = 1 :=
      rfl
    rw [toNat_ocEtagGet_of_lt, later, one]
    rw [later, one]
    clear later one
    omega
  rcases foldl_raiseEtag_mem
    (ocEtagGet (.steady start 0) state.source).globalEtag
    (state.restored storage) with same | member
  · have found : (foundEtag (.steady start 0) storage state).toNat =
        max start.toNat state.source.globalEtag.toNat + 1 := by
      unfold foundEtag
      rw [same, first]
    rw [slowest_iterate begun ordered clock (by omega)] at exceeded
    left
    omega
  · have near := fits _ member
    change (foundEtag (.steady start 0) storage state).toNat + _ < _ at near
    rw [slowest_iterate begun ordered clock (room _ near)] at exceeded
    right
    refine ⟨_, member, ?_⟩
    change _ ≤ (foundEtag (.steady start 0) storage state).toNat + count + 1
    omega

/-- After a restart the global ETag is at least as large as every ETag that
was handed out before the dump, and the next one is larger, whatever the
clock and the random numbers are, exactly when nothing that is restored is
near the end of the range and every ETag that was handed out is reached from
the clock or from an ETag that is restored. -/
theorem etag_monotone_across_restart (setup : EtagSetup) (saves : EtagSaves)
    (previous : EtagStorage) (before restarted : EtagState)
    (fromStorageOnly : Bool) (handedOut : List UInt64)
    (start latest : UInt64)
    (resources : ∀ resource ∈ before.resources, resource.etag ≠ 0 →
      resource.etag ∈ handedOut)
    (old : ∀ etag, previous.Holds etag → etag ∈ handedOut)
    (ordered : start ≤ latest)
    (begun : restarted.source.globalEtag ≤ latest)
    (range : latest.toNat + 2000 * (restarted.renewed fromStorageOnly
      (ocEtagDump setup saves before previous).1 + 3) ≤ 2 ^ 64) :
    (∀ world : EtagWorld, world.Within start latest →
      ∀ etag ∈ handedOut,
        etag ≤ (ocEtagLoadFromStorage world fromStorageOnly
          (ocEtagDump setup saves before previous).1
          restarted).1.source.globalEtag ∧
        etag < (ocEtagGet world (ocEtagLoadFromStorage world fromStorageOnly
          (ocEtagDump setup saves before previous).1
          restarted).1.source).globalEtag) ↔
      (∀ restored ∈ restarted.restored
          (ocEtagDump setup saves before previous).1,
        restored.toNat + 1000 * (restarted.renewed fromStorageOnly
          (ocEtagDump setup saves before previous).1 + 2) < 2 ^ 64) ∧
      ∀ etag ∈ handedOut,
        etag.toNat ≤ max start.toNat restarted.source.globalEtag.toNat +
          restarted.renewed fromStorageOnly
            (ocEtagDump setup saves before previous).1 + 2 ∨
        ∃ restored ∈ restarted.restored
            (ocEtagDump setup saves before previous).1,
          etag.toNat ≤ restored.toNat + restarted.renewed fromStorageOnly
            (ocEtagDump setup saves before previous).1 + 1 := by
  have issued : ∀ etag ∈ restarted.restored
      (ocEtagDump setup saves before previous).1, etag ∈ handedOut := by
    intro etag restored
    rcases holds_ocEtagDump (holds_of_restored restored) with
      ⟨resource, known, nonzero, rfl⟩ | holds
    · exact resources resource known nonzero
    · exact old etag holds
  simp only [ocEtagLoadFromStorage_source, UInt64.le_iff_toNat_le,
    UInt64.lt_iff_toNat_lt, ← Function.iterate_succ_apply']
  generalize (ocEtagDump setup saves before previous).1 = storage
    at range issued ⊢
  generalize restarted.renewed fromStorageOnly storage = count at range ⊢
  constructor
  · intro exceeded
    have fits := fun restored member =>
      @restored_lt_of_exceeded storage restarted start latest count ordered
        begun range (fun world within restored member =>
          (exceeded world within restored (issued restored member)).2)
        restored member
    refine ⟨fits, ?_⟩
    intro etag known
    exact reached_of_exceeded ordered begun range fits
      (exceeded _ (within_steady ordered 0) etag known).1
  · rintro ⟨fits, reached⟩ world within etag known
    exact exceeded_of_reached within begun range fits (reached etag known)

end Restart

namespace RestartFixture

def setup : EtagSetup := ⟨true, true⟩

def saves : EtagSaves := ⟨true, fun _ => true⟩

def empty : EtagStorage := ⟨none, fun _ => none⟩

/-- The ETag of the resource `/a` is ahead of the clock. -/
def before : EtagState :=
  ⟨⟨1500, 4⟩, [], [⟨true, [⟨[47, 97], 5000, some 1⟩]⟩]⟩

/-- After the restart, with this checksum of its representation. -/
def restarted (crc64 : UInt64) : EtagState :=
  ⟨⟨0, 0⟩, [], [⟨true, [⟨[47, 97], 1100, some crc64⟩]⟩]⟩

theorem old (etag : UInt64) (holds : empty.Holds etag) :
    etag ∈ [(5000 : UInt64)] := by
  obtain ⟨store, rep, which | ⟨index, which⟩, stored, -⟩ := holds
  · cases which.symm.trans stored
  · cases which.symm.trans stored

theorem restored_same :
    (restarted 1).restored (ocEtagDump setup saves before empty).1 =
      [5000] := by
  decide

end RestartFixture

/-- The ETag of a resource with the same representation is exceeded. -/
theorem etag_monotone_same_checksum :
    5000 ≤ (ocEtagLoadFromStorage (.steady 1000 0) false
      (ocEtagDump RestartFixture.setup RestartFixture.saves
        RestartFixture.before RestartFixture.empty).1
      (RestartFixture.restarted 1)).1.source.globalEtag ∧
    5000 < (ocEtagGet (.steady 1000 0)
      (ocEtagLoadFromStorage (.steady 1000 0) false
        (ocEtagDump RestartFixture.setup RestartFixture.saves
          RestartFixture.before RestartFixture.empty).1
        (RestartFixture.restarted 1)).1.source).globalEtag := by
  refine (etag_monotone_across_restart RestartFixture.setup
    RestartFixture.saves RestartFixture.empty RestartFixture.before
    (RestartFixture.restarted 1) false [5000] 1000 2000 ?_ RestartFixture.old
    (by decide) (by decide) (by decide)).mpr ⟨?_, ?_⟩ (.steady 1000 0)
    (fun _ => (⟨by decide, by decide⟩ : 1000 ≤ 1000 ∧ 1000 ≤ 2000)) 5000
    (.head _)
  · exact List.forall_mem_singleton.mpr (by decide)
  · rw [RestartFixture.restored_same]
    exact List.forall_mem_singleton.mpr (by decide)
  · rw [RestartFixture.restored_same]
    refine List.forall_mem_singleton.mpr (.inr ⟨5000, ?_, by decide⟩)
    exact List.mem_singleton_self _

/-- The global ETag falls behind that of a resource whose representation
changed. -/
theorem etag_not_monotone_changed_checksum :
    (ocEtagLoadFromStorage (.steady 1000 0) false
      (ocEtagDump RestartFixture.setup RestartFixture.saves
        RestartFixture.before RestartFixture.empty).1
      (RestartFixture.restarted 2)).1.source.globalEtag < 5000 := by
  decide

end IotivityLite
