import IotivityLite.Observe.Observers

/-!
# Notifying the collections of a resource

`coap_notify_collections` of `observe.c`.  When a resource changes, the
collections with a link to it are asked for a batch representation, which goes
to their batch observers.  The loop goes from one containing collection to the
next and ends at the first one that has no observers.
-/

namespace IotivityLite

/-- `OC_IF_B` -/
abbrev OcInterface.b : Nat := 8

/-- `links` has the addresses of the linked resources. -/
structure OcCollection where
  ref : Nat
  device : Nat
  links : List Nat
  numObservers : UInt8
  defaultInterface : Nat

structure ChangedResource where
  ref : Nat
  device : Nat

def OcCollection.hasLink (collection : OcCollection)
    (resource : ChangedResource) : Bool :=
  collection.device == resource.device &&
    collection.links.any (· == resource.ref)

/-- What the call finds.  `handles` tells for which collections
`oc_handle_collection_request` succeeds, `send` is the result of
`send_notification` for an observer. -/
structure CollectionServer where
  collections : List OcCollection
  distinct : (collections.map (·.ref)).Nodup
  observers : List ObserverRecord
  buffer : Bool
  handles : OcCollection → Bool
  send : ObserverRecord → Int

/-- The observers to whom a collection tried to send its representation. -/
structure CollectionNotice where
  collection : Nat
  observers : List ObserverRecord

/-- The collection after a place of the list that has a link, with what comes
after it. -/
def ocGetNextCollectionWithLink (resource : ChangedResource) :
    List OcCollection → Option (OcCollection × List OcCollection)
  | [] => none
  | collection :: rest =>
      if collection.hasLink resource then some (collection, rest)
      else ocGetNextCollectionWithLink resource rest

variable {collection : OcCollection}

theorem length_lt_of_getNext {resource : ChangedResource}
    {collections rest : List OcCollection}
    (found : ocGetNextCollectionWithLink resource collections =
      some (collection, rest)) : rest.length < collections.length := by
  induction collections with
  | nil => cases found
  | cons first others ih =>
      rw [ocGetNextCollectionWithLink] at found
      split at found
      · cases found
        exact Nat.lt_succ_self _
      · exact Nat.lt_succ_of_lt (ih found)

/-- If the observer wants representations of this interface, which it also
does if it has none of its own and the interface is the default one. -/
def OcCollection.selects (collection : OcCollection) (ifaceMask : Nat)
    (obs : ObserverRecord) : Bool :=
  obs.resource == collection.ref &&
    (obs.ifaceMask == ifaceMask ||
      obs.ifaceMask ||| ifaceMask == collection.defaultInterface)

namespace CollectionServer

variable (server : CollectionServer)

/-- The loop ends when a message cannot be sent. -/
def coapNotifyCollectionObservers (collection : OcCollection)
    (ifaceMask : Nat) : List ObserverRecord → List ObserverRecord
  | [] => []
  | obs :: rest =>
      if collection.selects ifaceMask obs then
        if server.send obs < 0 then [obs]
        else obs :: coapNotifyCollectionObservers collection ifaceMask rest
      else coapNotifyCollectionObservers collection ifaceMask rest

def notice (collection : OcCollection) : CollectionNotice :=
  ⟨collection.ref, server.coapNotifyCollectionObservers collection
    OcInterface.b server.observers⟩

/-- The loop of `coap_notify_collections`. -/
def notifyFrom (resource : ChangedResource) (collections : List OcCollection) :
    List CollectionNotice :=
  match _ : ocGetNextCollectionWithLink resource collections with
  | none => []
  | some (collection, rest) =>
      if collection.numObservers > 0 then
        if server.handles collection then
          server.notice collection :: notifyFrom resource rest
        else notifyFrom resource rest
      else []
termination_by collections.length
decreasing_by all_goals exact length_lt_of_getNext ‹_›

def coapNotifyCollections (resource : ChangedResource) :
    Int × List CollectionNotice :=
  if server.buffer then (0, server.notifyFrom resource server.collections)
  else (-1, [])

/-- The collection has an observer of its batch interface. -/
def HasBatchObserver (collection : OcCollection) : Prop :=
  ∃ obs ∈ server.observers, collection.selects OcInterface.b obs = true

/-- Every collection that contains the resource and has a batch observer tries
to notify one. -/
def NotifiesAll (resource : ChangedResource) : Prop :=
  ∀ collection ∈ server.collections,
    collection.hasLink resource = true → server.HasBatchObserver collection →
      ∃ notice ∈ (server.coapNotifyCollections resource).2,
        notice.collection = collection.ref ∧ notice.observers ≠ []

/-- The collections that come before this one in the list. -/
def collectionsBefore (collection : OcCollection) : List OcCollection :=
  server.collections.takeWhile fun other => other.ref != collection.ref

/-- There is a buffer, the request of every such collection succeeds, and
neither it nor a containing collection before it seems to have no
observers. -/
def NoneUnobserved (resource : ChangedResource) : Prop :=
  ∀ collection ∈ server.collections,
    collection.hasLink resource = true → server.HasBatchObserver collection →
      server.buffer = true ∧ server.handles collection = true ∧
        collection.numObservers > 0 ∧
        ∀ other ∈ server.collectionsBefore collection,
          other.hasLink resource = true → other.numObservers > 0

end CollectionServer

section Loop

variable {server : CollectionServer} {resource : ChangedResource}

theorem notifyFrom_none {collections : List OcCollection}
    (none : ocGetNextCollectionWithLink resource collections = none) :
    server.notifyFrom resource collections = [] := by
  rw [CollectionServer.notifyFrom]
  split
  · rfl
  · rename_i found
    rw [none] at found
    cases found

theorem notifyFrom_some {collections rest : List OcCollection}
    (next : ocGetNextCollectionWithLink resource collections =
      some (collection, rest)) :
    server.notifyFrom resource collections =
      if collection.numObservers > 0 then
        if server.handles collection then
          server.notice collection :: server.notifyFrom resource rest
        else server.notifyFrom resource rest
      else [] := by
  rw [CollectionServer.notifyFrom]
  split
  · rename_i none
    rw [next] at none
    cases none
  · rename_i found
    rw [next] at found
    cases found
    rfl

theorem notifyFrom_skip {rest : List OcCollection}
    (apart : ¬ collection.hasLink resource = true) :
    server.notifyFrom resource (collection :: rest) =
      server.notifyFrom resource rest := by
  have same : ocGetNextCollectionWithLink resource (collection :: rest) =
      ocGetNextCollectionWithLink resource rest := by
    rw [ocGetNextCollectionWithLink, if_neg apart]
  cases next : ocGetNextCollectionWithLink resource rest with
  | none => rw [notifyFrom_none next, notifyFrom_none (same.trans next)]
  | some found => rw [notifyFrom_some next, notifyFrom_some (same.trans next)]

theorem notifyFrom_link {rest : List OcCollection}
    (linked : collection.hasLink resource = true) :
    server.notifyFrom resource (collection :: rest) =
      if collection.numObservers > 0 then
        if server.handles collection then
          server.notice collection :: server.notifyFrom resource rest
        else server.notifyFrom resource rest
      else [] := by
  apply notifyFrom_some
  rw [ocGetNextCollectionWithLink, if_pos linked]

theorem exists_of_mem_notifyFrom {collections : List OcCollection}
    {notice : CollectionNotice}
    (member : notice ∈ server.notifyFrom resource collections) :
    ∃ collection ∈ collections, notice = server.notice collection := by
  induction collections with
  | nil =>
      rw [notifyFrom_none rfl] at member
      cases member
  | cons first rest ih =>
      have later : notice ∈ server.notifyFrom resource rest →
          ∃ collection ∈ first :: rest,
            notice = server.notice collection := by
        intro inRest
        obtain ⟨collection, present, same⟩ := ih inRest
        exact ⟨collection, List.mem_cons_of_mem _ present, same⟩
      by_cases linked : first.hasLink resource = true
      · rw [notifyFrom_link linked] at member
        split at member
        · split at member
          · rcases List.mem_cons.mp member with same | inRest
            · exact ⟨first, List.mem_cons_self, same⟩
            · exact later inRest
          · exact later member
        · cases member
      · rw [notifyFrom_skip linked] at member
        exact later member

theorem mem_notifyFrom_iff {collections : List OcCollection}
    (distinct : (collections.map (·.ref)).Nodup)
    {collection : OcCollection} (member : collection ∈ collections)
    (linked : collection.hasLink resource = true) :
    server.notice collection ∈ server.notifyFrom resource collections ↔
      server.handles collection = true ∧ collection.numObservers > 0 ∧
        ∀ other ∈ collections.takeWhile fun other =>
            other.ref != collection.ref,
          other.hasLink resource = true → other.numObservers > 0 := by
  induction collections with
  | nil => cases member
  | cons first rest ih =>
      rw [List.map_cons, List.nodup_cons] at distinct
      by_cases own : first.ref = collection.ref
      · -- this is the collection: nothing comes before it
        have same : first = collection := by
          rcases List.mem_cons.mp member with same | inRest
          · exact same.symm
          · exact absurd (own ▸ List.mem_map_of_mem inRest) distinct.1
        subst same
        have absent : server.notice first ∉
            server.notifyFrom resource rest := by
          intro inRest
          obtain ⟨other, present, equal⟩ := exists_of_mem_notifyFrom inRest
          have refs : first.ref = other.ref :=
            congrArg CollectionNotice.collection equal
          exact distinct.1 (refs ▸ List.mem_map_of_mem present)
        rw [notifyFrom_link linked, List.takeWhile_cons_of_neg (by simp)]
        by_cases observed : first.numObservers > 0
        · rw [if_pos observed]
          by_cases handled : server.handles first = true
          · rw [if_pos handled]
            exact ⟨fun _ => ⟨handled, observed, nofun⟩,
              fun _ => List.mem_cons_self⟩
          · rw [if_neg handled]
            exact ⟨fun inRest => absurd inRest absent,
              fun conditions => absurd conditions.1 handled⟩
        · rw [if_neg observed]
          exact ⟨nofun, fun conditions => absurd conditions.2.1 observed⟩
      · have inRest : collection ∈ rest := by
          rcases List.mem_cons.mp member with same | inRest
          · exact absurd (congrArg OcCollection.ref same.symm) own
          · exact inRest
        have later := ih distinct.2 inRest
        rw [List.takeWhile_cons_of_pos (by simpa using own)]
        rw [List.forall_mem_cons]
        by_cases link : first.hasLink resource = true
        · have different : server.notice collection ≠ server.notice first :=
            fun same => own (congrArg CollectionNotice.collection same).symm
          rw [notifyFrom_link link]
          by_cases observed : first.numObservers > 0
          · rw [if_pos observed]
            have middle : server.notice collection ∈
              (if server.handles first then
                server.notice first :: server.notifyFrom resource rest
              else server.notifyFrom resource rest) ↔
                server.notice collection ∈
                  server.notifyFrom resource rest := by
              split
              · rw [List.mem_cons]
                exact or_iff_right different
              · exact Iff.rfl
            rw [middle, later]
            exact and_congr_right fun _ => and_congr_right fun _ =>
              ⟨fun each => ⟨fun _ => observed, each⟩, fun both => both.2⟩
          · rw [if_neg observed]
            constructor
            · nofun
            · rintro ⟨-, -, here, -⟩
              exact absurd (here link) observed
        · rw [notifyFrom_skip link, later]
          exact and_congr_right fun _ => and_congr_right fun _ =>
            ⟨fun each => ⟨fun linked => absurd linked link, each⟩,
              fun both => both.2⟩

theorem notice_observers_ne_nil {observers : List ObserverRecord}
    {ifaceMask : Nat}
    (wanted : ∃ obs ∈ observers, collection.selects ifaceMask obs = true) :
    server.coapNotifyCollectionObservers collection ifaceMask observers ≠
      [] := by
  induction observers with
  | nil =>
      obtain ⟨_, member, -⟩ := wanted
      cases member
  | cons first rest ih =>
      rw [CollectionServer.coapNotifyCollectionObservers]
      by_cases selected : collection.selects ifaceMask first = true
      · rw [if_pos selected]
        split <;> exact List.cons_ne_nil _ _
      · rw [if_neg selected]
        apply ih
        obtain ⟨obs, member, wants⟩ := wanted
        rcases List.mem_cons.mp member with rfl | inRest
        · exact absurd wants selected
        · exact ⟨obs, inRest, wants⟩

end Loop

/-- All containing collections with batch observers are notified if and only
if no unobserved collection comes first. -/
theorem notifiesAll_iff (server : CollectionServer)
    (resource : ChangedResource) :
    server.NotifiesAll resource ↔ server.NoneUnobserved resource := by
  refine forall_congr' fun collection => forall_congr' fun member =>
    forall_congr' fun linked => forall_congr' fun wanted => ?_
  have reached := @mem_notifyFrom_iff server resource _ server.distinct _
    member linked
  rw [CollectionServer.coapNotifyCollections]
  by_cases buffer : server.buffer = true
  · rw [if_pos buffer]
    constructor
    · rintro ⟨notice, present, own, -⟩
      obtain ⟨other, otherMember, rfl⟩ := exists_of_mem_notifyFrom present
      have same : other = collection :=
        List.inj_on_of_nodup_map server.distinct otherMember member own
      rw [same, reached] at present
      exact ⟨buffer, present⟩
    · rintro ⟨-, conditions⟩
      exact ⟨server.notice collection, reached.mpr conditions, rfl,
        notice_observers_ne_nil wanted⟩
  · rw [if_neg buffer]
    constructor
    · rintro ⟨notice, present, -⟩
      cases present
    · rintro ⟨allocated, -⟩
      exact absurd allocated buffer

namespace TwoCollections

def lamp : ChangedResource := ⟨0, 0⟩

/-- The second of the two collections has a batch observer. -/
def server : CollectionServer where
  collections := [⟨1, 0, [0], 0, 4⟩, ⟨2, 0, [0], 1, 4⟩]
  distinct := by decide
  observers :=
    [{ ref := 0
       resource := 2
       url := [99]
       endpoint := ⟨0, true, 1, 0, Uuid.nil⟩
       token := .ofByte 1
       lastMid := 0
       block2Size := 0
       obsCounter := .start
       ifaceMask := OcInterface.b }]
  buffer := true
  handles := fun _ => true
  send := fun _ => 1

end TwoCollections

open TwoCollections in
/-- The first collection has no observers, so that the second is not
notified. -/
theorem not_notifiesAll : ¬ server.NotifiesAll lamp := by
  intro all
  have notices : (server.coapNotifyCollections lamp).2 = [] := by
    have linked : (⟨1, 0, [0], 0, 4⟩ : OcCollection).hasLink lamp = true := rfl
    exact (notifyFrom_link linked).trans (if_neg (by decide))
  have present : (⟨2, 0, [0], 1, 4⟩ : OcCollection) ∈ server.collections :=
    List.mem_cons_of_mem _ (List.mem_singleton_self _)
  obtain ⟨notice, member, -⟩ := all _ present rfl
    ⟨_, List.mem_singleton_self _, rfl⟩
  rw [notices] at member
  cases member

end IotivityLite
