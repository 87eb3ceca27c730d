import IotivityLite.Security.AclRun

/-!
# What a payload leaves of the access control list

A payload is applied while it is read, so a malformed part that is found late
leaves the earlier parts applied, and a resource without href and wildcard
takes the whole entry with it.  For payloads without such parts an update is
atomic: a rejected one changes nothing, an accepted one hands only existing
entries to the callback, leaves alone what it does not name, and removes no
entry without a replacement.
-/

namespace IotivityLite

/-- The ACEs of a payload that can be decoded. -/
def payloadDecodes (rep : Rep) : List AceDecode :=
  (payloadAces rep).filterMap ocSecDecodeAce

/-- An ACE of the payload has the entry's aceid. -/
def Named (rep : Rep) (ace : Ace) : Prop :=
  ∃ decode ∈ payloadDecodes rep, decode.aceid ≠ -1 ∧ decode.aceid = ace.aceid

/-- The entry is the first that is found for the resource. -/
def MergesInto (ace : Ace) (machine : AclMachine) : AclStep → Prop
  | .addResource _ decode res =>
      ocSecAceFindSubject machine.acl.aces (decode.update res).query = some ace
  | _ => False

/-- Some resource is merged into the entry. -/
def MergedInto (newAceid : NewAceid) (acl : Acl) (steps : List AclStep)
    (ace : Ace) : Prop :=
  ∃ earlier step later, earlier ++ step :: later = steps ∧
    MergesInto ace (runFrom (AclMachine.step newAceid) (AclMachine.start acl)
      earlier) step

/-- The entry is still in the list, perhaps with more resources. -/
def Survives (ace : Ace) (aces : List Ace) : Prop :=
  ∃ other ∈ aces, other.address = ace.address ∧ other.aceid = ace.aceid

/-- `merged` tells the entries that a resource was merged into. -/
structure AtomicUpdate (rep : Rep) (merged : Ace → Prop) (acl : Acl)
    (result : Bool × AclDecode) : Prop where
  rejected : result.1 = false →
    result.2.acl.aces = acl.aces ∧ result.2.acl.rowneruuid = acl.rowneruuid
  handedOver : result.1 = true → ∀ applied ∈ result.2.applied,
    ∃ ace ∈ result.2.acl.aces, ace.address = applied.address
  untouched : result.1 = true → ∀ ace ∈ acl.aces, ¬ Named rep ace →
    ¬ merged ace → ace ∈ result.2.acl.aces
  kept : result.1 = true → ∀ ace ∈ acl.aces,
    Survives ace result.2.acl.aces ∨
      Named rep ace ∧ ∃ other ∈ result.2.acl.aces, other.aceid = ace.aceid

/-- The resource has an href or a wildcard. -/
def AceResDecode.named (res : AceResDecode) : Bool :=
  (ocSecAddNewAceRes res.href res.wildcard).isSome

/-- No entry has the aceid of the ACE. -/
def ReplacesNone (acl : Acl) (decode : AceDecode) : Prop :=
  decode.aceid = -1 ∨ acl.uniqueAceid decode.aceid = true

instance (acl : Acl) (decode : AceDecode) :
    Decidable (ReplacesNone acl decode) :=
  inferInstanceAs (Decidable (_ ∨ _))

/-- A step that leaves the entries and the owner alone. -/
def Harmless (acl : Acl) : AclStep → Prop
  | .setRowner value => ocStrToUuid value acl.rowneruuid = acl.rowneruuid
  | .beginAce decode => ReplacesNone acl decode
  | .addResource _ decode res =>
      match ocSecAceFindSubject acl.aces (decode.update res).query with
      | none => res.named = false
      | some ace =>
          (ocSecAceFindResource ace res.href res.wildcard.bits).isSome = true
  | .endAce => True

/-- An ACE that replaces an entry brings a resource that can be added, the
entry was not handed over before, and no resource without href and wildcard
meets an entry it would be added to. -/
def KeepsEntries (machine : AclMachine) : AclStep → Prop
  | .beginAce decode =>
      (ReplacesNone machine.acl decode ∨
        ∃ item ∈ decode.resources,
          (aceDecodeResource item).any AceResDecode.named = true) ∧
      ∀ old ∈ (machine.acl.unlinkReplaced decode).2,
        ∀ applied ∈ machine.applied, applied.address ≠ old.address
  | .addResource _ decode res =>
      res.named = true ∨
        ocSecAceFindSubject machine.acl.aces (decode.update res).query = none
  | _ => True

instance (machine : AclMachine) : (step : AclStep) →
    Decidable (KeepsEntries machine step)
  | .beginAce _ => inferInstanceAs (Decidable (_ ∧ _))
  | .addResource _ _ _ => inferInstanceAs (Decidable (_ ∨ _))
  | .setRowner _ => isTrue trivial
  | .endAce => isTrue trivial

/-- The condition: nothing in front of the malformed part of a payload
changes the list, and no entry is lost to a part of a well-formed one. -/
structure AppliedAsWhole (newAceid : NewAceid) (acl : Acl)
    (steps : AclSteps) : Prop where
  malformed : steps.1 = false → ∀ step ∈ steps.2, Harmless acl step
  wellFormed : steps.1 = true → Along (AclMachine.step newAceid)
    KeepsEntries (AclMachine.start acl) steps.2

section Steps

variable {newAceid : NewAceid} {acl : Acl} {machine : AclMachine}
  {ace : Ace} {item : Rep} {decode : AceDecode} {res : AceResDecode}

theorem Survives.refl {aces : List Ace} (member : ace ∈ aces) :
    Survives ace aces :=
  ⟨ace, member, rfl, rfl⟩

private theorem survives_set {aces : List Ace} {index : Nat}
    {base changed : Ace} (here : aces[index]? = some base)
    (address : changed.address = base.address)
    (aceid : changed.aceid = base.aceid) (member : ace ∈ aces) :
    Survives ace (aces.set index changed) := by
  obtain ⟨position, bound, rfl⟩ := List.mem_iff_getElem.mp member
  by_cases same : position = index
  · subst same
    obtain rfl : aces[position] = base := by
      rw [List.getElem?_eq_getElem bound] at here
      exact Option.some.inj here
    exact ⟨changed, List.mem_set bound changed, address, aceid⟩
  · refine Survives.refl (List.mem_iff_getElem.mpr
      ⟨position, by rwa [List.length_set], ?_⟩)
    exact List.getElem_set_ne (Ne.symm same) _

private theorem exists_ocSecAceGetOrAddRes {base : Ace} {href : Option Bytes}
    {wildcard : AceWildcard}
    (names : (ocSecAddNewAceRes href wildcard).isSome = true) :
    ∃ changed created, ocSecAceGetOrAddRes base href wildcard =
        some (changed, created) ∧
      changed.address = base.address ∧ changed.aceid = base.aceid := by
  obtain ⟨added, given⟩ := Option.isSome_iff_exists.mp names
  unfold ocSecAceGetOrAddRes
  cases ocSecAceFindResource base href wildcard.bits with
  | some old => exact ⟨base, false, rfl, rfl, rfl⟩
  | none =>
      exact ⟨{ base with resources := base.resources ++ [added] }, true,
        by rw [given]; rfl, rfl, rfl⟩

theorem ocSecAclUpdateRes_of_named {update : AceUpdate}
    (names : (ocSecAddNewAceRes update.href update.wildcard).isSome = true) :
    ∃ added, (acl.ocSecAclUpdateRes newAceid update).2 = some added ∧
      (∀ ace ∈ acl.aces,
        Survives ace (acl.ocSecAclUpdateRes newAceid update).1.aces) ∧
      ∃ ace ∈ (acl.ocSecAclUpdateRes newAceid update).1.aces,
        ace.address = added.address ∧
        (update.aceid ≠ -1 → ace.aceid = update.aceid) := by
  cases found : acl.aces.findIdx? update.query.accepts with
  | none =>
      obtain ⟨res, given⟩ := Option.isSome_iff_exists.mp names
      rw [Acl.ocSecAclUpdateRes_of_absent found, given]
      refine ⟨_, rfl, ?_, ?_⟩
      · intro ace member
        exact Survives.refl (List.mem_append_left _ member)
      · refine ⟨_, List.mem_append_right _ (List.mem_singleton_self _), rfl,
          ?_⟩
        intro explicit
        simp [Acl.newAce, explicit]
  | some index =>
      obtain ⟨base, here, first⟩ := Acl.getElem?_of_findIdx? found
      obtain ⟨changed, created, given, address, aceid⟩ :=
        @exists_ocSecAceGetOrAddRes base _ _ names
      have accepted : update.query.accepts base = true :=
        List.find?_some first
      rw [Acl.ocSecAclUpdateRes_of_found found here, given]
      refine ⟨_, rfl, ?_, ?_⟩
      · intro ace member
        exact survives_set here address aceid member
      · have bound := (List.getElem?_eq_some_iff.mp here).1
        refine ⟨changed, List.mem_set bound changed, address, ?_⟩
        intro explicit
        have same : base.aceid = update.aceid := by
          simp only [AceQuery.accepts, AceUpdate.query, Bool.and_eq_true,
            Bool.or_eq_true, beq_iff_eq] at accepted
          exact accepted.1.1.1.resolve_left explicit
        exact aceid.trans same

theorem ocSecAclUpdateRes_of_unnamed {update : AceUpdate}
    (unnamed : ocSecAddNewAceRes update.href update.wildcard = none)
    (absent : ocSecAceFindSubject acl.aces update.query = none) :
    acl.ocSecAclUpdateRes newAceid update =
      ({ acl with allocated := acl.allocated + 1 }, none) := by
  have missing : acl.aces.findIdx? update.query.accepts = none := by
    rw [List.findIdx?_eq_none_iff]
    intro ace member
    rw [← Bool.not_eq_true]
    exact List.find?_eq_none.mp absent ace member
  rw [Acl.ocSecAclUpdateRes_of_absent missing, unnamed]

theorem data_step_addResource :
    (machine.step newAceid (.addResource item decode res)).data.ace =
      match (machine.acl.ocSecAclUpdateRes newAceid (decode.update res)).2 with
      | some added => some added.address
      | none => machine.data.ace := by
  simp only [AclMachine.step, aclDecodeAceResources]
  split
  · rename_i equation
    rw [equation]
  · rename_i equation
    rw [equation]

theorem keeps_addResource
    (keeps : KeepsEntries machine (.addResource item decode res)) :
    let after := machine.step newAceid (.addResource item decode res)
    (∀ ace ∈ machine.acl.aces, Survives ace after.acl.aces) ∧
      (after.data.ace = machine.data.ace ∨
        ∃ ace ∈ after.acl.aces, after.data.ace = some ace.address) := by
  intro after
  rw [show after.data.ace = _ from data_step_addResource,
    show after.acl = _ from machine.acl_step_addResource item decode res]
  cases named : res.named with
  | true =>
      obtain ⟨added, given, survive, ace, member, address, -⟩ :=
        @ocSecAclUpdateRes_of_named newAceid machine.acl
          (decode.update res) named
      refine ⟨survive, .inr ⟨ace, member, ?_⟩⟩
      rw [given, address]
  | false =>
      have absent := keeps.resolve_left (by simp [named])
      rw [AceResDecode.named, Option.isSome_eq_false_iff,
        Option.isNone_iff_eq_none] at named
      rw [@ocSecAclUpdateRes_of_unnamed newAceid machine.acl
        (decode.update res) named absent]
      exact ⟨fun _ member => Survives.refl member, .inl rfl⟩

theorem unlinkReplaced_of_replacesNone (none : ReplacesNone acl decode) :
    acl.unlinkReplaced decode = (acl, .none) := by
  unfold Acl.unlinkReplaced
  rw [if_neg]
  rintro ⟨explicit, taken⟩
  exact taken (none.resolve_left explicit)

/-- A harmless step leaves the access control list as it is. -/
theorem unchanged_step {step : AclStep} (aces : machine.acl.aces = acl.aces)
    (rowneruuid : machine.acl.rowneruuid = acl.rowneruuid)
    (harmless : Harmless acl step) :
    (machine.step newAceid step).acl.aces = acl.aces ∧
      (machine.step newAceid step).acl.rowneruuid = acl.rowneruuid := by
  cases step with
  | setRowner value =>
      refine ⟨aces, ?_⟩
      show ocStrToUuid value machine.acl.rowneruuid = acl.rowneruuid
      rw [rowneruuid]
      exact harmless
  | beginAce decode =>
      have replacesNone : ReplacesNone machine.acl decode := by
        unfold ReplacesNone Acl.uniqueAceid
        rw [aces]
        exact harmless
      simp only [AclMachine.step, unlinkReplaced_of_replacesNone replacesNone]
      exact ⟨aces, rowneruuid⟩
  | addResource item decode res =>
      rw [AclMachine.acl_step_addResource]
      simp only [Harmless, ← aces] at harmless
      cases found : machine.acl.aces.findIdx?
          (decode.update res).query.accepts with
      | none =>
          rw [Acl.ocSecAclUpdateRes_of_absent found]
          have absent : ocSecAceFindSubject machine.acl.aces
              (decode.update res).query = none := by
            rw [ocSecAceFindSubject, List.find?_eq_bind_findIdx?_getElem?,
              found, Option.bind_none]
          rw [absent] at harmless
          rw [show ocSecAddNewAceRes (decode.update res).href
            (decode.update res).wildcard = none from
              Option.isNone_iff_eq_none.mp
                (Option.isSome_eq_false_iff.mp harmless)]
          exact ⟨aces, rowneruuid⟩
      | some index =>
          obtain ⟨ace, here, first⟩ := Acl.getElem?_of_findIdx? found
          rw [first] at harmless
          obtain ⟨old, present⟩ := Option.isSome_iff_exists.mp harmless
          have same : ocSecAceGetOrAddRes ace (decode.update res).href
              (decode.update res).wildcard = some (ace, false) := by
            unfold ocSecAceGetOrAddRes
            rw [show ocSecAceFindResource ace (decode.update res).href
              (decode.update res).wildcard.bits = some old from present]
          rw [Acl.ocSecAclUpdateRes_of_found found here, same]
          obtain ⟨bound, value⟩ := List.getElem?_eq_some_iff.mp here
          refine ⟨?_, rowneruuid⟩
          rw [← aces]
          simp only [← value, List.set_getElem_self]
  | endAce => exact ⟨aces, rowneruuid⟩

end Steps

section Payloads

variable {newAceid : NewAceid} {acl : Acl} {machine : AclMachine}
  {ace : Ace} {step : AclStep} {rep : Rep}

private theorem mem_eraseIdx_of_ne {aces : List Ace} {index : Nat}
    {other : Ace} (here : aces[index]? = some other) (differs : ace ≠ other)
    (member : ace ∈ aces) : ace ∈ aces.eraseIdx index := by
  obtain ⟨position, bound, rfl⟩ := List.mem_iff_getElem.mp member
  refine List.mem_eraseIdx_iff_getElem.mpr ⟨position, bound, ?_, rfl⟩
  rintro rfl
  rw [List.getElem?_eq_getElem bound] at here
  exact differs (Option.some.inj here)

/-- The entries that were and will be handed to the callback are there. -/
structure HandsOver (machine : AclMachine) : Prop where
  pending : ∀ address ∈ machine.data.ace,
    ∃ ace ∈ machine.acl.aces, ace.address = address
  applied : ∀ applied ∈ machine.applied,
    ∃ ace ∈ machine.acl.aces, ace.address = applied.address

/-- A step that keeps entries keeps those that were handed over. -/
theorem handsOver_step (handsOver : HandsOver machine)
    (keeps : KeepsEntries machine step) :
    HandsOver (machine.step newAceid step) := by
  cases step with
  | setRowner value => exact ⟨handsOver.pending, handsOver.applied⟩
  | beginAce decode =>
      refine ⟨by rintro address ⟨⟩, ?_⟩
      intro applied earlier
      obtain ⟨ace, member, address⟩ := handsOver.applied applied earlier
      refine ⟨ace, ?_, address⟩
      show ace ∈ (machine.acl.unlinkReplaced decode).1.aces
      rcases machine.acl.unlinkReplaced_cases decode with same |
        ⟨index, other, here, -, -, same⟩
      · rw [same]
        exact member
      · have apart := keeps.2 other (by rw [same]; rfl) applied earlier
        rw [same]
        refine mem_eraseIdx_of_ne here ?_ member
        rintro rfl
        exact apart address.symm
  | addResource item decode res =>
      obtain ⟨survive, adds⟩ :=
        @keeps_addResource newAceid machine item decode res keeps
      refine ⟨?_, ?_⟩
      swap
      · intro applied earlier
        obtain ⟨ace, member, here⟩ := handsOver.applied applied earlier
        obtain ⟨other, present, address, -⟩ := survive ace member
        exact ⟨other, present, address.trans here⟩
      rcases adds with same | ⟨ace, member, new⟩
      · rw [same]
        intro address pending
        obtain ⟨ace, member, rfl⟩ := handsOver.pending address pending
        obtain ⟨other, present, address, -⟩ := survive ace member
        exact ⟨other, present, address⟩
      · rw [new]
        rintro address ⟨⟩
        exact ⟨ace, member, rfl⟩
  | endAce =>
      refine ⟨handsOver.pending, ?_⟩
      intro applied member
      rcases List.mem_append.mp member with earlier | new
      · exact handsOver.applied applied earlier
      · obtain ⟨address, pending, rfl⟩ := List.mem_map.mp new
        exact handsOver.pending address (Option.mem_toList.mp pending)

private theorem mem_set_of_ne {aces : List Ace} {index : Nat}
    {other changed : Ace} (here : aces[index]? = some other)
    (differs : ace ≠ other) (member : ace ∈ aces) :
    ace ∈ aces.set index changed := by
  obtain ⟨position, bound, rfl⟩ := List.mem_iff_getElem.mp member
  have apart : index ≠ position := by
    rintro rfl
    rw [List.getElem?_eq_getElem bound] at here
    exact differs (Option.some.inj here)
  exact List.mem_iff_getElem.mpr ⟨position, by rwa [List.length_set],
    List.getElem_set_ne apart _⟩

/-- An update changes no entry but the first it finds. -/
theorem mem_ocSecAclUpdateRes_of_ne {update : AceUpdate}
    (other : ocSecAceFindSubject acl.aces update.query ≠ some ace)
    (member : ace ∈ acl.aces) :
    ace ∈ (acl.ocSecAclUpdateRes newAceid update).1.aces := by
  cases found : acl.aces.findIdx? update.query.accepts with
  | none =>
      rw [Acl.ocSecAclUpdateRes_of_absent found]
      split
      · exact member
      · exact List.mem_append_left _ member
  | some index =>
      obtain ⟨base, here, first⟩ := Acl.getElem?_of_findIdx? found
      have differs : ace ≠ base := by
        rintro rfl
        exact other first
      rw [Acl.ocSecAclUpdateRes_of_found found here]
      split
      · exact mem_eraseIdx_of_ne here differs member
      · exact mem_set_of_ne here differs member

theorem decode_mem_payloadDecodes {decode : AceDecode}
    (known : .beginAce decode ∈ (aclSteps rep).2) :
    decode ∈ payloadDecodes rep := by
  rcases mem_aclSteps known with ⟨value, owner⟩ | ⟨item, inside, own⟩
  · cases owner
  · obtain ⟨other, decoded, same | same | ⟨res, same, -⟩⟩ := mem_itemSteps own
    · obtain rfl := AclStep.beginAce.inj same
      exact List.mem_filterMap.mpr ⟨item, inside, decoded⟩
    · cases same
    · cases same

/-- An entry that no step names or merges into stays as it is. -/
theorem untouched_step (known : step ∈ (aclSteps rep).2)
    (unnamed : ¬ Named rep ace) (unmerged : ¬ MergesInto ace machine step)
    (member : ace ∈ machine.acl.aces) :
    ace ∈ (machine.step newAceid step).acl.aces := by
  cases step with
  | setRowner value => exact member
  | beginAce decode =>
      show ace ∈ (machine.acl.unlinkReplaced decode).1.aces
      rcases machine.acl.unlinkReplaced_cases decode with same |
        ⟨index, other, here, aceid, given, same⟩
      · rw [same]
        exact member
      · rw [same]
        refine mem_eraseIdx_of_ne here ?_ member
        rintro rfl
        exact unnamed ⟨decode, decode_mem_payloadDecodes known, given,
          aceid.symm⟩
  | addResource item decode res =>
      rw [AclMachine.acl_step_addResource]
      exact mem_ocSecAclUpdateRes_of_ne unmerged member
  | endAce => exact member

end Payloads

section Replacements

variable {newAceid : NewAceid} {machine : AclMachine} {ace : Ace}
  {decodes : List AceDecode} {own : Rep} {decode : AceDecode}

/-- Every entry survives, or is named and has a replacement. -/
def KeptBy (decodes : List AceDecode) (before after : List Ace) : Prop :=
  ∀ ace ∈ before, Survives ace after ∨
    (∃ decode ∈ decodes, decode.aceid ≠ -1 ∧ decode.aceid = ace.aceid) ∧
      ∃ other ∈ after, other.aceid = ace.aceid

theorem Survives.trans {middle after : List Ace}
    (first : Survives ace middle)
    (later : ∀ other ∈ middle, Survives other after) : Survives ace after := by
  obtain ⟨other, member, address, aceid⟩ := first
  obtain ⟨last, present, lastAddress, lastAceid⟩ := later other member
  exact ⟨last, present, lastAddress.trans address, lastAceid.trans aceid⟩

theorem KeptBy.refl (aces : List Ace) : KeptBy decodes aces aces :=
  fun _ member => .inl (Survives.refl member)

theorem KeptBy.trans {before middle after : List Ace}
    (first : KeptBy decodes before middle)
    (second : KeptBy decodes middle after) : KeptBy decodes before after := by
  intro ace member
  rcases first ace member with ⟨other, present, address, aceid⟩ |
    ⟨named, other, present, aceid⟩
  · rcases second other present with ⟨last, found, lastAddress, lastAceid⟩ |
      ⟨named, last, found, lastAceid⟩
    · exact .inl ⟨last, found, lastAddress.trans address,
        lastAceid.trans aceid⟩
    · rw [aceid] at named lastAceid
      exact .inr ⟨named, last, found, lastAceid⟩
  · rcases second other present with ⟨last, found, -, lastAceid⟩ |
      ⟨-, last, found, lastAceid⟩
    · exact .inr ⟨named, last, found, lastAceid.trans aceid⟩
    · exact .inr ⟨named, last, found, lastAceid.trans aceid⟩

theorem kept_resourceSteps {items : List Rep}
    (ok : (resourceSteps own decode items).1 = true)
    (keeps : Along (AclMachine.step newAceid) KeepsEntries machine
      (resourceSteps own decode items).2) :
    (∀ ace ∈ machine.acl.aces, Survives ace
      (runFrom (AclMachine.step newAceid) machine
        (resourceSteps own decode items).2).acl.aces) ∧
    ((∃ item ∈ items, (aceDecodeResource item).any AceResDecode.named) →
      decode.aceid ≠ -1 →
      ∃ other ∈ (runFrom (AclMachine.step newAceid) machine
        (resourceSteps own decode items).2).acl.aces,
          other.aceid = decode.aceid) := by
  induction items generalizing machine with
  | nil =>
      refine ⟨fun _ member => Survives.refl member, ?_⟩
      rintro ⟨item, ⟨⟩, -⟩
  | cons item items ih =>
      unfold resourceSteps at ok keeps ⊢
      cases decoded : aceDecodeResource item with
      | none =>
          rw [decoded] at ok
          cases ok
      | some res =>
          rw [decoded] at ok keeps
          simp only [AclSteps.seq, if_true, List.singleton_append,
            runFrom_cons, Along] at ok keeps ⊢
          obtain ⟨survive, replaced⟩ := @ih
            (machine.step newAceid (.addResource own decode res)) ok keeps.2
          obtain ⟨first, -⟩ :=
            @keeps_addResource newAceid machine own decode res keeps.1
          refine ⟨fun ace member => (first ace member).trans survive, ?_⟩
          rintro ⟨named, member, isNamed⟩ explicit
          rcases List.mem_cons.mp member with rfl | later
          · rw [decoded] at isNamed
            obtain ⟨added, -, -, other, present, -, aceid⟩ :=
              @ocSecAclUpdateRes_of_named newAceid machine.acl
                (decode.update res) isNamed
            rw [← AclMachine.acl_step_addResource] at present
            obtain ⟨last, found, -, same⟩ := survive other present
            exact ⟨last, found, same.trans (aceid explicit)⟩
          · exact replaced ⟨named, later, isNamed⟩ explicit

theorem kept_itemSteps {item : Rep} (ok : (itemSteps item).1 = true)
    (keeps : Along (AclMachine.step newAceid) KeepsEntries machine
      (itemSteps item).2)
    (listed : ∀ decode, ocSecDecodeAce item = some decode →
      decode ∈ decodes) :
    KeptBy decodes machine.acl.aces
      (runFrom (AclMachine.step newAceid) machine
        (itemSteps item).2).acl.aces := by
  unfold itemSteps at ok keeps ⊢
  cases decoded : ocSecDecodeAce item with
  | none =>
      rw [decoded] at ok
      cases ok
  | some decode =>
      have member := listed decode decoded
      rw [decoded] at ok keeps
      cases wellFormed : (resourceSteps item decode decode.resources).1 with
      | false =>
          simp [AclSteps.seq, wellFormed] at ok
      | true =>
          simp only [AclSteps.seq, if_true, wellFormed, List.singleton_append,
            runFrom_cons, runFrom_append, Along, along_append] at keeps ⊢
          obtain ⟨survive, replaced⟩ := @kept_resourceSteps newAceid
            (machine.step newAceid (.beginAce decode)) item decode
            decode.resources wellFormed keeps.2.1
          simp only [runFrom_nil, AclMachine.step] at survive replaced ⊢
          intro ace present
          rcases machine.acl.unlinkReplaced_cases decode with same |
            ⟨index, other, here, aceid, given, same⟩
          · refine .inl (survive ace ?_)
            rw [same]
            exact present
          · by_cases unlinked : ace = other
            · subst unlinked
              refine .inr ⟨⟨decode, member, given, aceid.symm⟩, ?_⟩
              rw [aceid]
              refine replaced (keeps.1.1.resolve_left ?_) given
              intro replacesNone
              rw [unlinkReplaced_of_replacesNone replacesNone,
                Prod.mk.injEq] at same
              cases same.2
            · refine .inl (survive ace ?_)
              rw [same]
              exact mem_eraseIdx_of_ne here unlinked present

private theorem kept_seq {first second : AclSteps}
    (ok : (AclSteps.seq first second).1 = true)
    (keeps : Along (AclMachine.step newAceid) KeepsEntries machine
      (AclSteps.seq first second).2)
    (keptFirst : first.1 = true →
      Along (AclMachine.step newAceid) KeepsEntries machine first.2 →
      KeptBy decodes machine.acl.aces
        (runFrom (AclMachine.step newAceid) machine first.2).acl.aces)
    (keptSecond : ∀ before : AclMachine, second.1 = true →
      Along (AclMachine.step newAceid) KeepsEntries before second.2 →
      KeptBy decodes before.acl.aces
        (runFrom (AclMachine.step newAceid) before second.2).acl.aces) :
    KeptBy decodes machine.acl.aces
      (runFrom (AclMachine.step newAceid) machine
        (AclSteps.seq first second).2).acl.aces := by
  cases firstOk : first.1 with
  | false =>
      simp [AclSteps.seq, firstOk] at ok
  | true =>
      simp only [AclSteps.seq, firstOk, if_true, along_append,
        runFrom_append] at ok keeps ⊢
      exact (keptFirst firstOk keeps.1).trans (keptSecond _ ok keeps.2)

theorem kept_aclist2Steps {items : List Rep}
    (ok : (aclist2Steps items).1 = true)
    (keeps : Along (AclMachine.step newAceid) KeepsEntries machine
      (aclist2Steps items).2)
    (listed : ∀ item ∈ items, ∀ decode, ocSecDecodeAce item = some decode →
      decode ∈ decodes) :
    KeptBy decodes machine.acl.aces
      (runFrom (AclMachine.step newAceid) machine
        (aclist2Steps items).2).acl.aces := by
  induction items generalizing machine with
  | nil => exact KeptBy.refl _
  | cons item items ih =>
      rw [List.forall_mem_cons] at listed
      refine kept_seq ok keeps ?_ ?_
      · intro itemOk itemKeeps
        exact kept_itemSteps itemOk itemKeeps listed.1
      · intro before itemsOk itemsKeep
        exact ih itemsOk itemsKeep listed.2

theorem kept_aclSteps {rep : Rep} (ok : (aclSteps rep).1 = true)
    (keeps : Along (AclMachine.step newAceid) KeepsEntries machine
      (aclSteps rep).2)
    (listed : ∀ item ∈ payloadAces rep, ∀ decode,
      ocSecDecodeAce item = some decode → decode ∈ decodes) :
    KeptBy decodes machine.acl.aces
      (runFrom (AclMachine.step newAceid) machine
        (aclSteps rep).2).acl.aces := by
  induction rep generalizing machine with
  | nil => exact KeptBy.refl _
  | cons entry rep ih =>
      simp only [payloadAces, List.flatMap_cons, List.forall_mem_append]
        at listed
      refine kept_seq ok keeps ?_ ?_
      · obtain ⟨name, value⟩ := entry
        intro entryOk entryKeeps
        cases value with
        | objectArray items =>
            exact kept_aclist2Steps entryOk entryKeeps listed.1
        | string value =>
            unfold entrySteps
            simp only
            split_ifs
            · exact KeptBy.refl _
            · exact KeptBy.refl _
        | _ => exact KeptBy.refl _
      · intro before repOk repKeeps
        exact ih repOk repKeeps listed.2

end Replacements

section Updates

variable {newAceid : NewAceid} {acl : Acl}

theorem admittedSteps_cases (dos : DosType) (fromStorage : Bool) (rep : Rep) :
    admittedSteps dos fromStorage rep = (false, []) ∨
      admittedSteps dos fromStorage rep = aclSteps rep := by
  unfold admittedSteps
  split_ifs
  · exact .inl rfl
  · exact .inr rfl

theorem unchanged_run {steps : List AclStep}
    (harmless : ∀ step ∈ steps, Harmless acl step) :
    (runFrom (AclMachine.step newAceid) (AclMachine.start acl)
      steps).acl.aces = acl.aces ∧
    (runFrom (AclMachine.step newAceid) (AclMachine.start acl)
      steps).acl.rowneruuid = acl.rowneruuid := by
  apply @invariant_runFrom_of_mem _ _ _ _ (fun machine : AclMachine =>
    machine.acl.aces = acl.aces ∧ machine.acl.rowneruuid = acl.rowneruuid)
  · exact ⟨rfl, rfl⟩
  · intro before step inside unchanged
    exact unchanged_step unchanged.1 unchanged.2 (harmless step inside)

theorem untouched_run {rep : Rep} {ace : Ace} (unnamed : ¬ Named rep ace)
    (unmerged : ¬ MergedInto newAceid acl (aclSteps rep).2 ace)
    (member : ace ∈ acl.aces) :
    ace ∈ (runFrom (AclMachine.step newAceid) (AclMachine.start acl)
      (aclSteps rep).2).acl.aces := by
  have apart : Along (AclMachine.step newAceid)
      (fun machine step => ¬ MergesInto ace machine step)
      (AclMachine.start acl) (aclSteps rep).2 :=
    along_iff_forall_append.mpr fun earlier step later whole merges =>
      unmerged ⟨earlier, step, later, whole, merges⟩
  let present (machine : AclMachine) : Prop := ace ∈ machine.acl.aces
  refine (apart.and_forall fun _ inside => inside).invariant
    (show present (AclMachine.start acl) from member) ?_
  intro before step here both
  exact untouched_step both.2 unnamed both.1 here

/-- A payload that is applied as a whole or not at all is an atomic update. -/
theorem atomicUpdate_of_appliedAsWhole (dos : DosType) (fromStorage : Bool)
    (rep : Rep)
    (whole : AppliedAsWhole newAceid acl
      (admittedSteps dos fromStorage rep)) :
    AtomicUpdate rep
      (MergedInto newAceid acl (admittedSteps dos fromStorage rep).2) acl
      (ocSecDecodeAcl newAceid dos fromStorage rep acl) := by
  rw [ocSecDecodeAcl_eq_runFrom]
  obtain ⟨malformed, wellFormed⟩ := whole
  constructor
  · intro refused
    exact unchanged_run (malformed refused)
  · intro accepted
    refine HandsOver.applied ((wellFormed accepted).invariant ?_ ?_)
    · exact ⟨by rintro address ⟨⟩, by rintro applied ⟨⟩⟩
    · intro before step handsOver keeps
      exact handsOver_step handsOver keeps
  · intro accepted ace member unnamed unmerged
    rcases admittedSteps_cases dos fromStorage rep with refused | same
    · rw [refused] at accepted
      cases accepted
    · rw [same] at unmerged ⊢
      exact untouched_run unnamed unmerged member
  · intro accepted ace member
    rcases admittedSteps_cases dos fromStorage rep with refused | same
    · rw [refused] at accepted
      cases accepted
    · rw [same] at accepted wellFormed ⊢
      refine kept_aclSteps accepted (wellFormed accepted) ?_ ace member
      intro item inside decode decoded
      exact List.mem_filterMap.mpr ⟨item, inside, decoded⟩

end Updates

section Samples

private def guestEntry : Ace where
  address := 0
  aceid := 1
  permission := 2
  subject := .role (ascii "guest") []
  tag := none
  resources := [⟨ascii "/a", .noWc⟩]

private def provisioned : Acl := ⟨[guestEntry], Uuid.nil, 1⟩

private def addressAsAceid : NewAceid := fun address _ => address + 100

private def requestFor (role : String) (aceid : Int) (resources : List Rep) :
    Rep :=
  [(ascii "aceid", .int aceid),
    (ascii "subject", .object [(ascii "role", .string (ascii role))]),
    (ascii "permission", .int 2),
    (ascii "resources", .objectArray resources)]

private def hrefRep (href : String) : Rep :=
  [(ascii "href", .string (ascii href))]

private def update (items : List Rep) : Rep :=
  [(ascii "aclist2", .objectArray items)]

private def updated (items : List Rep) : Bool × AclDecode :=
  ocSecDecodeAcl addressAsAceid .rfpro false (update items) provisioned

private def Atomic (items : List Rep) : Prop :=
  AtomicUpdate (update items)
    (MergedInto addressAsAceid provisioned
      (admittedSteps .rfpro false (update items)).2)
    provisioned (updated items)

/-- The entry is replaced by one with another resource. -/
theorem atomicUpdate_replacement :
    Atomic [requestFor "guest" 1 [hrefRep "/b"]] :=
  atomicUpdate_of_appliedAsWhole .rfpro false _
    { malformed := fun malformed => absurd malformed (by decide +kernel)
      wellFormed := fun _ => by decide +kernel }

/-- A malformed ACE leaves the one in front of it applied, an ACE without
resources removes the entry it replaces, and a resource without href and
wildcard removes the entry that is then handed to the callback. -/
theorem not_atomicUpdate :
    ¬ Atomic
      [requestFor "guest" (-1) [hrefRep "/b"], [(ascii "ace", .int 1)]] ∧
    ¬ Atomic [requestFor "guest" 1 []] ∧
    ¬ Atomic [requestFor "host" 2 [hrefRep "/b", []]] := by
  refine ⟨?_, ?_, ?_⟩
  · intro atomic
    exact absurd (atomic.rejected (by decide +kernel)).1 (by decide +kernel)
  · intro atomic
    have empty : (updated [requestFor "guest" 1 []]).2.acl.aces = [] := by
      decide +kernel
    rcases atomic.kept (by decide +kernel) guestEntry
      (List.mem_singleton_self guestEntry) with
      ⟨other, member, -⟩ | ⟨-, other, member, -⟩
    · rw [empty] at member
      cases member
    · rw [empty] at member
      cases member
  · intro atomic
    exact absurd (atomic.handedOver (by decide +kernel)) (by decide +kernel)

end Samples

end IotivityLite
