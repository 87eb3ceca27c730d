import IotivityLite.Event.Timers
import Mathlib.Data.Fintype.Card

/-!
# The list of event timers

Every call keeps the timers in a list that ends, each of them with a process,
and recomputes the time of the next expiration when the list or a timer
changed.  Only the exit of a process takes timers out and leaves both their
process and the cached time behind; these timers are followed by
`abandoned`.
-/

namespace IotivityLite

/-- What `g_next_expiration` says about the timers it was computed from, at
the reading of the clock when this was done.  Nothing is ahead when a timer is
due: the next poll is at once. -/
inductive CachedExpiration {n : Nat} (clock : Nat → UInt64)
    (state : EtimerState n) (counted : List (Fin n)) : Prop where
  | nothing : counted = [] → state.nextExpiration = 0 →
      CachedExpiration clock state counted
  | due {reading : Nat} {t : Fin n} : reading < state.readings →
      t ∈ counted → (state.timer t).expired (clock reading) = true →
      state.nextExpiration = clock reading →
      CachedExpiration clock state counted
  | ahead {reading : Nat} {t : Fin n} : reading < state.readings →
      (∀ other ∈ counted,
        (state.timer other).expired (clock reading) = false) →
      t ∈ counted → state.nextExpiration = (state.timer t).expirationTime →
      (∀ other ∈ counted, state.nextExpiration - clock reading ≤
        (state.timer other).expirationTime - clock reading) →
      CachedExpiration clock state counted

namespace EtimerState

variable {n : Nat} {clock : Nat → UInt64} {state : EtimerState n}
  {listed : List (Fin n)} {head : Option (Fin n)}

theorem length_le_of_linked (linked : Linked state.next head listed) :
    listed.length ≤ n := by
  simpa using linked.nodup.length_le_card

theorem exists_rounds {rounds count : Nat} (enough : count + 1 ≤ rounds) :
    ∃ fewer, rounds = fewer + 1 ∧ count ≤ fewer :=
  ⟨rounds - 1, by omega, by omega⟩

variable {rounds : Nat}

theorem closest_attained {now tdist : UInt64}
    (linked : Linked state.next head listed) (enough : listed.length ≤ rounds) :
    state.closest now rounds head tdist = tdist ∨
      ∃ t ∈ listed,
        state.closest now rounds head tdist =
          (state.timer t).untilTime now := by
  induction linked generalizing rounds tdist with
  | nil => cases rounds <;> exact .inl rfl
  | @cons item rest later ih =>
      obtain ⟨rounds, rfl, fewer⟩ := exists_rounds enough
      simp only [closest, List.mem_cons, exists_eq_or_imp]
      split
      · rcases ih fewer with same | found
        · exact .inr (.inl same)
        · exact .inr (.inr found)
      · rcases ih fewer with same | found
        · exact .inl same
        · exact .inr (.inr found)

theorem closest_le {now tdist : UInt64} (linked : Linked state.next head listed)
    (enough : listed.length ≤ rounds) :
    state.closest now rounds head tdist ≤ tdist ∧
    ∀ t ∈ listed,
      state.closest now rounds head tdist ≤
        (state.timer t).untilTime now := by
  induction linked generalizing rounds tdist with
  | nil => cases rounds <;> exact ⟨UInt64.le_refl _, by simp⟩
  | @cons item rest later ih =>
      obtain ⟨rounds, rfl, fewer⟩ := exists_rounds enough
      simp only [closest, List.mem_cons, forall_eq_or_imp]
      split
      case isTrue closer =>
        obtain ⟨below, least⟩ := ih fewer
        exact ⟨UInt64.le_trans below (UInt64.le_of_lt closer), below, least⟩
      case isFalse further =>
        obtain ⟨below, least⟩ := ih fewer
        exact ⟨below, UInt64.le_trans below (UInt64.not_lt.mp further), least⟩

variable {t : Fin n}

theorem closest_first (now : UInt64) {rest : List (Fin n)}
    (linked : Linked state.next (some t) (t :: rest)) :
    (∃ found ∈ t :: rest,
      state.closest now n (state.next t) ((state.timer t).untilTime now) =
        (state.timer found).untilTime now) ∧
    ∀ other ∈ t :: rest,
      state.closest now n (state.next t) ((state.timer t).untilTime now) ≤
        (state.timer other).untilTime now := by
  have room := length_le_of_linked linked
  have enough : rest.length ≤ n := by
    simp only [List.length_cons] at room
    omega
  have later := linked.tail
  constructor
  · rcases closest_attained later enough with first | ⟨found, member, found_eq⟩
    · exact ⟨t, List.mem_cons_self, first⟩
    · exact ⟨found, List.mem_cons_of_mem t member, found_eq⟩
  · rw [List.forall_mem_cons]
    exact closest_le later enough

theorem untilTime_of_expired {timer : OcTimer} {now : UInt64}
    (expired : timer.expired now = true) : timer.untilTime now = 0 := by
  simp [OcTimer.untilTime, expired]

theorem untilTime_of_not_expired {timer : OcTimer} {now : UInt64}
    (running : timer.expired now = false) :
    timer.untilTime now = timer.expirationTime - now := by
  simp [OcTimer.untilTime, OcTimer.expirationTime, running]

@[simp] theorem timer_etimerUpdateTime :
    (state.etimerUpdateTime clock).timer = state.timer := by
  unfold etimerUpdateTime
  split <;> rfl

@[simp] theorem next_etimerUpdateTime :
    (state.etimerUpdateTime clock).next = state.next := by
  unfold etimerUpdateTime
  split <;> rfl

@[simp] theorem p_etimerUpdateTime :
    (state.etimerUpdateTime clock).p = state.p := by
  unfold etimerUpdateTime
  split <;> rfl

@[simp] theorem timerlist_etimerUpdateTime :
    (state.etimerUpdateTime clock).timerlist = state.timerlist := by
  unfold etimerUpdateTime
  split <;> rfl

theorem cached_etimerUpdateTime
    (linked : Linked state.next state.timerlist listed) :
    CachedExpiration clock (state.etimerUpdateTime clock) listed := by
  cases first : state.timerlist with
  | none =>
      rw [first] at linked
      refine .nothing linked.eq_nil ?_
      simp [etimerUpdateTime, first]
  | some t =>
      rw [first] at linked
      obtain ⟨rest, rfl, -⟩ := linked.exists_cons
      have cached : (state.etimerUpdateTime clock).nextExpiration =
          clock state.readings + state.closest (clock state.readings) n
            (state.next t)
            ((state.timer t).untilTime (clock state.readings)) := by
        simp [etimerUpdateTime, first]
      have read :
          state.readings < (state.etimerUpdateTime clock).readings := by
        simp [etimerUpdateTime, first]
      obtain ⟨⟨found, member, attained⟩, least⟩ :=
        closest_first (clock state.readings) linked
      by_cases due : ∃ other ∈ t :: rest,
          (state.timer other).expired (clock state.readings) = true
      · obtain ⟨other, other_member, expired⟩ := due
        have zero := least other other_member
        rw [untilTime_of_expired expired, UInt64.le_zero_iff] at zero
        refine .due read other_member ?_ ?_
        · simpa using expired
        · rw [cached, zero, UInt64.add_zero]
      · have running : ∀ other ∈ t :: rest,
            (state.timer other).expired (clock state.readings) = false := by
          intro other other_member
          by_contra expired
          exact due ⟨other, other_member, by simpa using expired⟩
        rw [attained] at cached least
        rw [untilTime_of_not_expired (running found member)] at cached least
        rw [UInt64.add_comm, UInt64.sub_add_cancel] at cached
        refine .ahead read ?_ member ?_ ?_
        · simpa using running
        · simpa using cached
        · intro other other_member
          have bound := least other other_member
          rw [untilTime_of_not_expired (running other other_member)] at bound
          rw [cached]
          simpa using bound

theorem cached_congr {other : EtimerState n} {counted : List (Fin n)}
    (cached : CachedExpiration clock state counted)
    (timer : other.timer = state.timer)
    (next_expiration : other.nextExpiration = state.nextExpiration)
    (readings : state.readings ≤ other.readings) :
    CachedExpiration clock other counted := by
  cases cached with
  | nothing empty zero => exact .nothing empty (next_expiration.trans zero)
  | due read member expired cached =>
      refine .due (Nat.lt_of_lt_of_le read readings) member ?_
        (next_expiration.trans cached)
      rw [timer]
      exact expired
  | ahead read running member cached least =>
      refine .ahead (Nat.lt_of_lt_of_le read readings) ?_ member ?_ ?_
      · rw [timer]
        exact running
      · rw [next_expiration, timer]
        exact cached
      · rw [next_expiration, timer]
        exact least

/-- The timers in the list have a process, and the others with a process are
abandoned. -/
structure Keeps (state : EtimerState n) (abandoned : Fin n → Bool)
    (listed : List (Fin n)) : Prop where
  linked : Linked state.next state.timerlist listed
  owned : ∀ t ∈ listed, state.p t ≠ none
  present : ∀ t, state.p t ≠ none → t ∈ listed ∨ abandoned t = true

/-- The cached time belongs to the timers in the list, and maybe to some that
were abandoned. -/
structure Caches (clock : Nat → UInt64) (state : EtimerState n)
    (abandoned : Fin n → Bool) (listed counted : List (Fin n)) : Prop where
  covers : ∀ t ∈ listed, t ∈ counted
  others : ∀ t ∈ counted, t ∉ listed → abandoned t = true
  cached : CachedExpiration clock state counted

/-- The invariant of every run. -/
def Sound (clock : Nat → UInt64) (abandoned : Fin n → Bool)
    (state : EtimerState n) : Prop :=
  ∃ listed, state.Keeps abandoned listed ∧
    ∃ counted, state.Caches clock abandoned listed counted

variable {abandoned : Fin n → Bool}

theorem Keeps.update (keeps : state.Keeps abandoned listed) :
    (state.etimerUpdateTime clock).Keeps abandoned listed := by
  constructor
  · simpa using keeps.linked
  · simpa using keeps.owned
  · simpa using keeps.present

theorem Caches.exact (cached : CachedExpiration clock state listed) :
    state.Caches clock abandoned listed listed where
  covers := fun _ member => member
  others := fun _ member outside => absurd member outside
  cached := cached

theorem sound_etimerUpdateTime (keeps : state.Keeps abandoned listed) :
    (state.etimerUpdateTime clock).Sound clock abandoned :=
  ⟨listed, keeps.update, listed,
    .exact (cached_etimerUpdateTime keeps.linked)⟩

variable {timer : Fin n}

theorem isInList_iff (linked : Linked state.next head listed)
    (enough : listed.length ≤ rounds) :
    state.isInList timer rounds head = true ↔ timer ∈ listed := by
  induction linked generalizing rounds with
  | nil => cases rounds <;> simp [isInList]
  | @cons item rest later ih =>
      obtain ⟨rounds, rfl, fewer⟩ := exists_rounds enough
      rw [isInList, List.mem_cons]
      split
      case isTrue same => simp [same]
      case isFalse different =>
        rw [ih fewer]
        constructor
        · exact .inr
        · rintro (same | member)
          · exact absurd same.symm different
          · exact member

theorem test_isInList_iff (keeps : state.Keeps abandoned listed)
    (timer : Fin n) :
    ((state.p timer).isSome &&
      state.isInList timer n state.timerlist) = true ↔ timer ∈ listed := by
  rw [Bool.and_eq_true,
    isInList_iff keeps.linked (length_le_of_linked keeps.linked),
    Option.isSome_iff_ne_none]
  constructor
  · exact And.right
  · intro member
    exact ⟨keeps.owned timer member, member⟩

variable {next : Fin n → Option (Fin n)}

section

variable (keeps : state.Keeps abandoned listed)

include keeps

theorem Keeps.own {after : List (Fin n)} (current : Nat)
    (linked : Linked next head after)
    (same : ∀ t, t ∈ after ↔ t = timer ∨ t ∈ listed) :
    Keeps
      { state with
        next
        timerlist := head
        p := Function.update state.p timer (some current) }
      (Function.update abandoned timer false) after := by
  refine ⟨linked, ?_, ?_⟩
  · intro t member
    by_cases here : t = timer
    · subst here
      simp
    · rcases (same t).mp member with absurdly | old
      · exact absurd absurdly here
      · simpa [here] using keeps.owned t old
  · intro t owned
    by_cases here : t = timer
    · exact .inl ((same t).mpr (.inl here))
    · simp only [ne_eq, here, not_false_eq_true, Function.update_of_ne]
        at owned ⊢
      rcases keeps.present t owned with old | left_behind
      · exact .inl ((same t).mpr (.inr old))
      · exact .inr left_behind

theorem sound_etimerAddTimer {current : Nat} :
    (state.etimerAddTimer clock current timer).Sound clock
      (Function.update abandoned timer false) := by
  have search := test_isInList_iff keeps timer
  unfold etimerAddTimer
  by_cases member : timer ∈ listed
  · rw [search.mpr member]
    refine sound_etimerUpdateTime (keeps.own current keeps.linked ?_)
    intro t
    constructor
    · exact .inr
    · rintro (rfl | old)
      · exact member
      · exact old
  · rw [Bool.eq_false_iff.mpr (mt search.mp member)]
    have linked : Linked
        (Function.update state.next timer state.timerlist) (some timer)
        (timer :: listed) := by
      refine .cons ?_
      rw [Function.update_self]
      exact keeps.linked.update member
    refine sound_etimerUpdateTime (keeps.own current linked ?_)
    intro t
    exact List.mem_cons

theorem Keeps.setTimer (et : Fin n) (changed : OcTimer) (readings : Nat) :
    Keeps { state.setTimer et changed with readings } abandoned listed :=
  ⟨keeps.linked, keeps.owned, keeps.present⟩

theorem Keeps.disown {after : List (Fin n)} {other : EtimerState n}
    (linked : Linked next head after)
    (same : ∀ t, t ∈ after ↔ t ≠ timer ∧ t ∈ listed)
    (other_next : other.next = Function.update next timer none)
    (other_list : other.timerlist = head)
    (other_p : other.p = Function.update state.p timer none) :
    other.Keeps abandoned after := by
  constructor
  · rw [other_next, other_list]
    apply linked.update
    intro member
    exact ((same timer).mp member).1 rfl
  · intro t member
    obtain ⟨different, old⟩ := (same t).mp member
    rw [other_p, Function.update_of_ne different]
    exact keeps.owned t old
  · intro t owned
    rw [other_p] at owned
    by_cases here : t = timer
    · subst here
      simp at owned
    · rw [Function.update_of_ne here] at owned
      rcases keeps.present t owned with old | left_behind
      · exact .inl ((same t).mpr ⟨here, old⟩)
      · exact .inr left_behind

end

variable {before after : List (Fin n)}

theorem mem_without {gone : Fin n} (distinct : (before ++ gone :: after).Nodup)
    (t : Fin n) :
    t ∈ before ++ after ↔ t ≠ gone ∧ t ∈ before ++ gone :: after := by
  rw [List.nodup_middle, List.nodup_cons] at distinct
  have outside := distinct.1
  rw [List.perm_middle.mem_iff, List.mem_cons]
  constructor
  · intro member
    refine ⟨?_, .inr member⟩
    rintro rfl
    exact outside member
  · rintro ⟨different, same | member⟩
    · exact absurd same different
    · exact member

theorem findBefore_none {et : Fin n} (linked : Linked state.next head listed)
    (enough : listed.length ≤ rounds) (not_first : head ≠ some et)
    (nothing : state.findBefore et rounds head = none) : et ∉ listed := by
  induction linked generalizing rounds with
  | nil => exact List.not_mem_nil
  | @cons item rest later ih =>
      obtain ⟨rounds, rfl, fewer⟩ := exists_rounds enough
      rw [findBefore] at nothing
      split at nothing
      case isTrue not_next =>
        rw [List.mem_cons]
        rintro (rfl | member)
        · exact not_first rfl
        · exact ih fewer not_next nothing member
      case isFalse => cases nothing

theorem findBefore_some {et t : Fin n} (linked : Linked state.next head listed)
    (found : state.findBefore et rounds head = some t) :
    ∃ before after, listed = before ++ t :: et :: after := by
  induction linked generalizing rounds with
  | nil => cases rounds <;> cases found
  | @cons item rest later ih =>
      cases rounds with
      | zero => cases found
      | succ rounds =>
          rw [findBefore] at found
          split at found
          case isTrue =>
            obtain ⟨before, after, rfl⟩ := ih found
            exact ⟨item :: before, after, rfl⟩
          case isFalse next =>
            obtain rfl := Option.some.inj found
            rw [not_not.mp next] at later
            obtain ⟨after, rfl, -⟩ := later.exists_cons
            exact ⟨[], after, rfl⟩

/-- `oc_etimer_stop` clears the fields of the timer after the update. -/
def clear (et : Fin n) (state : EtimerState n) : EtimerState n :=
  { state with
    next := Function.update state.next et none
    p := Function.update state.p et none }

theorem sound_clear {et : Fin n} {middle : EtimerState n}
    (keeps : state.Keeps abandoned (before ++ et :: after))
    (linked : Linked middle.next middle.timerlist (before ++ after))
    (owners : middle.p = state.p) :
    ((middle.etimerUpdateTime clock).clear et).Sound clock abandoned := by
  have without := mem_without keeps.linked.nodup
  refine ⟨before ++ after, ?_, before ++ after, ?_⟩
  · refine keeps.disown linked without ?_ ?_ ?_
    · simp [clear]
    · simp [clear]
    · simp [clear, owners]
  · apply Caches.exact
    exact cached_congr (cached_etimerUpdateTime linked) rfl rfl
      (Nat.le_refl _)

theorem sound_ocEtimerStop {et : Fin n} (sound : state.Sound clock abandoned) :
    (state.ocEtimerStop clock et).Sound clock abandoned := by
  obtain ⟨listed, keeps, counted, caches⟩ := sound
  have linked := keeps.linked
  unfold ocEtimerStop
  by_cases first : state.timerlist = some et
  · rw [if_pos first]
    rw [first] at linked
    obtain ⟨rest, rfl, later⟩ := linked.exists_cons
    rw [← List.nil_append (et :: rest)] at keeps
    exact sound_clear keeps later rfl
  · rw [if_neg first]
    cases found : state.findBefore et n state.timerlist with
    | none =>
        have outside :=
          findBefore_none linked (length_le_of_linked linked) first found
        refine ⟨listed, ?_, counted, caches.covers, caches.others, ?_⟩
        · refine keeps.disown linked ?_ rfl rfl rfl
          intro t
          constructor
          · intro member
            refine ⟨?_, member⟩
            rintro rfl
            exact outside member
          · exact And.right
        · exact cached_congr caches.cached rfl rfl (Nat.le_refl _)
    | some t =>
        obtain ⟨before, after, rfl⟩ := findBefore_some linked found
        have unlinked := linked.unlink
        rw [List.append_cons] at keeps unlinked
        exact sound_clear keeps unlinked rfl

variable {posts : Nat → Bool}

theorem findExpired_some {prev found : Option (Fin n)}
    {rounds start readings : Nat} (linked : Linked state.next head listed)
    (result : state.findExpired clock posts rounds prev head start =
      (some (found, t), readings)) :
    ∃ before after, listed = before ++ t :: after ∧
      ((before = [] ∧ found = prev) ∨
        ∃ others last, before = others ++ [last] ∧ found = some last) := by
  induction linked generalizing rounds prev start with
  | nil => cases rounds <;> simp [findExpired] at result
  | @cons item rest later ih =>
      cases rounds with
      | zero => simp [findExpired] at result
      | succ rounds =>
          -- the walk goes on behind the first timer, which is the new `prev`
          have later_found : ∀ next_start,
              state.findExpired clock posts rounds (some item)
                (state.next item) next_start = (some (found, t), readings) →
              ∃ before after, item :: rest = before ++ t :: after ∧
                ((before = [] ∧ found = prev) ∨
                  ∃ others last, before = others ++ [last] ∧
                    found = some last) := by
            intro next_start continued
            obtain ⟨before, after, rfl, place⟩ := ih continued
            rcases place with ⟨rfl, rfl⟩ | ⟨others, last, rfl, rfl⟩
            · exact ⟨[item], after, rfl, .inr ⟨[], item, rfl, rfl⟩⟩
            · exact ⟨item :: (others ++ [last]), after, rfl,
                .inr ⟨item :: others, last, rfl, rfl⟩⟩
          rw [findExpired] at result
          split at result
          · exact later_found _ result
          · split at result
            · exact later_found _ result
            · simp only [Prod.mk.injEq, Option.some.injEq] at result
              obtain ⟨⟨rfl, rfl⟩, -⟩ := result
              exact ⟨[], rest, rfl, .inl ⟨rfl, rfl⟩⟩

theorem findExpired_readings {prev head : Option (Fin n)} {rounds start : Nat} :
    start ≤ (state.findExpired clock posts rounds prev head start).2 := by
  induction rounds generalizing prev head start with
  | zero => exact Nat.le_refl _
  | succ rounds ih =>
      cases head with
      | none => exact Nat.le_refl _
      | some t =>
          rw [findExpired]
          split
          · exact Nat.le_of_succ_le ih
          · split
            · exact Nat.le_of_succ_le ih
            · exact Nat.le_succ start

theorem keeps_takeOut {prev : Option (Fin n)}
    (keeps : state.Keeps abandoned (before ++ t :: after))
    (place : (before = [] ∧ prev = none) ∨
      ∃ others last, before = others ++ [last] ∧ prev = some last) :
    (state.takeOut prev t).Keeps abandoned (before ++ after) := by
  have without := mem_without keeps.linked.nodup
  have linked := keeps.linked
  rcases place with ⟨rfl, rfl⟩ | ⟨others, last, rfl, rfl⟩
  · cases first : state.timerlist with
    | none =>
        rw [first] at linked
        cases linked
    | some head =>
        rw [first] at linked
        cases linked with
        | cons later => exact keeps.disown later without rfl rfl rfl
  · rw [← List.append_cons] at linked
    have unlinked := linked.unlink
    rw [List.append_cons] at unlinked
    exact keeps.disown unlinked without rfl rfl rfl

theorem etimerProcessPoll_true {polled : EtimerState n}
    (keeps : state.Keeps abandoned listed)
    (handled : state.etimerProcessPoll clock posts = (true, polled)) :
    ∃ middle : EtimerState n, ∃ fewer,
      polled = middle.etimerUpdateTime clock ∧
        middle.Keeps abandoned fewer ∧ fewer.length < listed.length := by
  unfold etimerProcessPoll at handled
  split at handled
  · simp at handled
  · rename_i prev t readings found
    obtain ⟨before, after, rfl, place⟩ := findExpired_some keeps.linked found
    have read : Keeps { state with readings } abandoned
        (before ++ t :: after) := ⟨keeps.linked, keeps.owned, keeps.present⟩
    refine ⟨_, before ++ after, (Prod.mk.inj handled).2.symm,
      keeps_takeOut read place, ?_⟩
    simp

theorem etimerProcessPoll_false {polled : EtimerState n}
    (nothing : state.etimerProcessPoll clock posts = (false, polled)) :
    ∃ readings, state.readings ≤ readings ∧
      polled = { state with readings } := by
  unfold etimerProcessPoll at nothing
  split at nothing
  · rename_i readings result
    refine ⟨readings, ?_, (Prod.mk.inj nothing).2.symm⟩
    have later : state.readings ≤ (state.findExpired clock posts n none
      state.timerlist state.readings).2 := findExpired_readings
    rw [result] at later
    exact later
  · simp at nothing

theorem sound_keepPolling (sound : state.Sound clock abandoned) :
    (state.keepPolling clock posts rounds).Sound clock abandoned := by
  induction rounds generalizing state with
  | zero => exact sound
  | succ rounds ih =>
      obtain ⟨listed, keeps, counted, caches⟩ := sound
      rw [keepPolling]
      split
      case h_1 polled handled =>
        obtain ⟨middle, fewer, rfl, kept, -⟩ :=
          etimerProcessPoll_true keeps handled
        exact ih (sound_etimerUpdateTime kept)
      case h_2 polled nothing =>
        obtain ⟨readings, later, rfl⟩ := etimerProcessPoll_false nothing
        exact ⟨listed, ⟨keeps.linked, keeps.owned, keeps.present⟩, counted,
          caches.covers, caches.others,
          cached_congr caches.cached rfl rfl later⟩

/-- More rounds than timers are enough: a poll ends with a scan that fires
nothing. -/
theorem keepPolling_ends (keeps : state.Keeps abandoned listed)
    (enough : listed.length < rounds) :
    ∃ last : EtimerState n, last.etimerProcessPoll clock posts =
      (false, state.keepPolling clock posts rounds) := by
  induction rounds generalizing state listed with
  | zero => omega
  | succ rounds ih =>
      rw [keepPolling]
      split
      case h_1 polled handled =>
        obtain ⟨middle, fewer, rfl, kept, shorter⟩ :=
          etimerProcessPoll_true keeps handled
        exact ih kept.update (by omega)
      case h_2 polled nothing => exact ⟨state, nothing⟩

/-- The list without the timers of a process. -/
def without (p : Nat) (state : EtimerState n) (listed : List (Fin n)) :
    List (Fin n) :=
  listed.filter fun t => state.p t != some p

variable {p : Nat}

theorem linked_dropFirst (linked : Linked state.next head listed)
    (enough : listed.length ≤ rounds) :
    ∃ rest, Linked state.next (state.dropFirst p rounds head) rest ∧
      state.without p rest = state.without p listed ∧
      ∀ t, state.dropFirst p rounds head = some t → state.p t ≠ some p := by
  induction linked generalizing rounds with
  | nil =>
      refine ⟨[], ?_, rfl, ?_⟩
      · cases rounds <;> exact .nil
      · intro t impossible
        cases rounds <;> cases impossible
  | @cons item rest later ih =>
      obtain ⟨rounds, rfl, fewer⟩ := exists_rounds enough
      rw [dropFirst]
      split
      case isTrue mine =>
        obtain ⟨kept, kept_linked, same, first⟩ := ih fewer
        refine ⟨kept, kept_linked, ?_, first⟩
        simpa [without, mine] using same
      case isFalse other =>
        refine ⟨item :: rest, .cons later, rfl, ?_⟩
        rintro t ⟨⟩
        exact other

theorem dropLater_spec {p : Nat} {owner : Fin n → Option Nat} {t : Fin n}
    {next : Fin n → Option (Fin n)} {rest : List (Fin n)} {rounds : Nat}
    (linked : Linked next (some t) (t :: rest))
    (enough : rest.length ≤ rounds) :
    Linked (dropLater p owner rounds t next) (some t)
      (t :: rest.filter fun later => owner later != some p) ∧
    ∀ other, other ∉ t :: rest →
      dropLater p owner rounds t next other = next other := by
  induction rest generalizing t next rounds with
  | nil =>
      have stays : dropLater p owner rounds t next = next := by
        cases ended : next t with
        | none => cases rounds <;> simp [dropLater, ended]
        | some later =>
            have tail := linked.tail
            rw [ended] at tail
            cases tail
      rw [stays]
      exact ⟨linked, fun _ _ => rfl⟩
  | cons first rest ih =>
      obtain ⟨rounds, rfl, fewer⟩ := exists_rounds enough
      have follows : next t = some first := linked.tail.head_eq
      rw [dropLater, follows]
      by_cases mine : owner first = some p
      · -- `first` is passed over, and the walk stays at `t`
        have passed : Linked (Function.update next t (next first)) (some t)
            (t :: rest) := by
          rw [← List.nil_append (t :: first :: rest)] at linked
          exact linked.unlink
        obtain ⟨shorter, frame⟩ := ih passed fewer
        simp only [mine, if_true]
        constructor
        · simpa [mine] using shorter
        · intro other outside
          simp only [List.mem_cons, not_or] at outside
          rw [frame other (by simp [outside]),
            Function.update_of_ne outside.1]
      · obtain ⟨shorter, frame⟩ := ih (.cons linked.tail.tail) fewer
        have distinct := linked.nodup
        rw [List.nodup_cons] at distinct
        simp only [mine, if_false]
        constructor
        · rw [List.filter_cons_of_pos (by simpa using mine)]
          refine .cons ?_
          rw [frame t distinct.1, follows]
          exact shorter
        · intro other outside
          exact frame other (fun member =>
            outside (List.mem_cons_of_mem t member))

theorem linked_etimerRemoveProcessPendingTimers
    (linked : Linked state.next state.timerlist listed) :
    Linked (state.etimerRemoveProcessPendingTimers p).next
      (state.etimerRemoveProcessPendingTimers p).timerlist
      (state.without p listed) := by
  obtain ⟨rest, rest_linked, same, first⟩ :=
    linked_dropFirst (p := p) linked (length_le_of_linked linked)
  unfold etimerRemoveProcessPendingTimers
  rw [← same]
  cases found : state.dropFirst p n state.timerlist with
  | none =>
      rw [found] at rest_linked
      rw [rest_linked.eq_nil]
      exact .nil
  | some t =>
      rw [found] at rest_linked
      have room := length_le_of_linked rest_linked
      obtain ⟨later, rfl, -⟩ := rest_linked.exists_cons
      have kept : state.without p (t :: later) =
          t :: later.filter fun other => state.p other != some p := by
        apply List.filter_cons_of_pos
        simpa using first t found
      rw [kept]
      refine (dropLater_spec rest_linked ?_).1
      simp only [List.length_cons] at room
      omega

theorem mem_without_iff :
    t ∈ state.without p listed ↔ t ∈ listed ∧ state.p t ≠ some p := by
  simp [without]

@[simp] theorem p_etimerRemoveProcessPendingTimers :
    (state.etimerRemoveProcessPendingTimers p).p = state.p := by
  unfold etimerRemoveProcessPendingTimers
  split <;> rfl

theorem cached_etimerRemoveProcessPendingTimers {counted : List (Fin n)}
    (cached : CachedExpiration clock state counted) :
    CachedExpiration clock (state.etimerRemoveProcessPendingTimers p)
      counted := by
  unfold etimerRemoveProcessPendingTimers
  split
  · exact cached_congr cached rfl rfl (Nat.le_refl _)
  · exact cached_congr cached rfl rfl (Nat.le_refl _)

theorem sound_exit (sound : state.Sound clock abandoned) :
    (state.etimerRemoveProcessPendingTimers p).Sound clock
      (fun t => abandoned t || state.p t == some p) := by
  obtain ⟨listed, keeps, counted, caches⟩ := sound
  refine ⟨state.without p listed, ?_, counted, ?_⟩
  · refine ⟨linked_etimerRemoveProcessPendingTimers keeps.linked, ?_, ?_⟩
    · intro t member
      rw [p_etimerRemoveProcessPendingTimers]
      exact keeps.owned t (mem_without_iff.mp member).1
    · intro t owned
      rw [p_etimerRemoveProcessPendingTimers] at owned
      by_cases mine : state.p t = some p
      · exact .inr (by simp [mine])
      · rcases keeps.present t owned with member | left_behind
        · exact .inl (mem_without_iff.mpr ⟨member, mine⟩)
        · exact .inr (by simp [left_behind])
  · refine ⟨?_, ?_, cached_etimerRemoveProcessPendingTimers caches.cached⟩
    · intro t member
      exact caches.covers t (mem_without_iff.mp member).1
    · intro t member outside
      by_cases mine : state.p t = some p
      · simp [mine]
      · have unlisted : t ∉ listed := by
          intro listed_member
          exact outside (mem_without_iff.mpr ⟨listed_member, mine⟩)
        simp [caches.others t member unlisted]

end EtimerState

namespace EtimerRun

open EtimerState

variable {n : Nat} {clock : Nat → UInt64}

theorem sound_initial :
    (initial : EtimerRun n).state.Sound clock
      (initial : EtimerRun n).abandoned := by
  refine ⟨[], ⟨.nil, ?_, ?_⟩, [], .exact (.nothing rfl rfl)⟩
  · exact fun _ member => absurd member List.not_mem_nil
  · exact fun _ owned => absurd rfl owned

theorem sound_step {run : EtimerRun n} (call : EtimerCall n)
    (sound : run.state.Sound clock run.abandoned) :
    (run.step clock call).state.Sound clock
      (run.step clock call).abandoned := by
  have whole := sound
  obtain ⟨listed, keeps, -⟩ := sound
  cases call with
  | set current et interval => exact sound_etimerAddTimer (keeps.setTimer ..)
  | resetWithNewInterval current et interval =>
      exact sound_etimerAddTimer (keeps.setTimer ..)
  | reset current et => exact sound_etimerAddTimer (keeps.setTimer ..)
  | restart current et => exact sound_etimerAddTimer (keeps.setTimer ..)
  | adjust et timediff => exact sound_etimerUpdateTime (keeps.setTimer ..)
  | stop et => exact sound_ocEtimerStop whole
  | exit p => exact sound_exit whole
  | poll posts => exact sound_keepPolling whole

end EtimerRun

/-- In every run the timers of the list are linked, without a cycle or a
duplicate, and have a process; a timer with a process is in the list, unless
the exit of its process took it out.  The cached time is zero for an empty
list.  Otherwise it is the reading of the clock at which it was computed when a
timer had expired by then, and else the expiration time of the timer that
expires first after that reading; timers taken out by the exit of their
process since then may have been counted. -/
theorem etimer_list_sound (n : Nat) (clock : Nat → UInt64)
    (calls : List (EtimerCall n)) :
    let run := runFrom (EtimerRun.step clock) .initial calls
    ∃ listed counted,
      Linked run.state.next run.state.timerlist listed ∧ listed.Nodup ∧
      (∀ t ∈ listed, run.state.p t ≠ none) ∧
      (∀ t, run.state.p t ≠ none → t ∈ listed ∨ run.abandoned t = true) ∧
      (∀ t ∈ listed, t ∈ counted) ∧
      (∀ t ∈ counted, t ∉ listed → run.abandoned t = true) ∧
      CachedExpiration clock run.state counted := by
  intro run
  have sound : run.state.Sound clock run.abandoned := by
    refine @invariant_runFrom _ _ _ _
      (fun run : EtimerRun n => run.state.Sound clock run.abandoned) calls
      EtimerRun.sound_initial ?_
    intro before call sound
    exact EtimerRun.sound_step call sound
  obtain ⟨listed, keeps, counted, caches⟩ := sound
  exact ⟨listed, counted, keeps.linked, keeps.linked.nodup, keeps.owned,
    keeps.present, caches.covers, caches.others, caches.cached⟩

/-- The list of the timers with a process, and the smallest of their
expiration times. -/
def EtimerState.HasMinimum {n : Nat} (state : EtimerState n) : Prop :=
  ∃ listed, Linked state.next state.timerlist listed ∧ listed.Nodup ∧
    (∀ t, t ∈ listed ↔ state.p t ≠ none) ∧
    (state.nextExpiration = 0 ↔ listed = []) ∧
    (listed ≠ [] →
      (∃ t ∈ listed,
        state.nextExpiration = (state.timer t).expirationTime) ∧
      ∀ t ∈ listed, state.nextExpiration ≤ (state.timer t).expirationTime)

/-- A clock that jumps between the second and the third reading. -/
def lateClock (reading : Nat) : UInt64 := if reading < 2 then 0 else 50

/-- The first timer expires at 10, before the second one is set. -/
def lateCalls : List (EtimerCall 2) := [.set 1 0 10, .set 1 1 100]

/-- With a timer that is due the cached time is the present, not the
expiration time of this timer. -/
theorem not_hasMinimum_due :
    ¬ ∀ (n : Nat) (clock : Nat → UInt64) (calls : List (EtimerCall n)),
      (runFrom (EtimerRun.step clock) .initial calls).state.HasMinimum := by
  intro always
  obtain ⟨listed, -, -, owned, -, least⟩ := always 2 lateClock lateCalls
  have member : (0 : Fin 2) ∈ listed := (owned 0).mpr (by decide)
  have filled : listed ≠ [] := List.ne_nil_of_mem member
  have early := (least filled).2 0 member
  revert early
  decide

end IotivityLite
