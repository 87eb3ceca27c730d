import IotivityLite.Foundation.Run
import IotivityLite.Security.Acl

/-!
# An ACL payload as a run

Which changes a payload makes depends on the payload alone; only what each
change does depends on the list.  The decoder is therefore a run of single
steps that are read off the payload, up to the first malformed part.
-/

namespace IotivityLite

/-- A resource comes with the ACE of the payload that it is from. -/
inductive AclStep where
  | setRowner (value : Bytes)
  | beginAce (decode : AceDecode)
  | addResource (ace : Rep) (decode : AceDecode) (res : AceResDecode)
  | endAce

/-- The list while a payload is applied, with the local variables of the
loop. -/
structure AclMachine where
  acl : Acl
  applied : List AppliedAce
  replaced : Option Ace
  data : ResourcesData

namespace AclMachine

def start (acl : Acl) : AclMachine := ⟨acl, [], none, {}⟩

def result (machine : AclMachine) : AclDecode := ⟨machine.acl, machine.applied⟩

def step (newAceid : NewAceid) (machine : AclMachine) :
    AclStep → AclMachine
  | .setRowner value =>
      { machine with
        acl := { machine.acl with
          rowneruuid := ocStrToUuid value machine.acl.rowneruuid } }
  | .beginAce decode =>
      { machine with
        acl := (machine.acl.unlinkReplaced decode).1
        replaced := (machine.acl.unlinkReplaced decode).2
        data := {} }
  | .addResource _ decode res =>
      { machine with
        acl := (aclDecodeAceResources newAceid decode res machine.acl
          machine.data).1
        data := (aclDecodeAceResources newAceid decode res machine.acl
          machine.data).2 }
  | .endAce =>
      { machine with
        applied := machine.applied ++
          onApplyAce machine.acl machine.replaced machine.data }

theorem acl_step_addResource {newAceid : NewAceid} (machine : AclMachine)
    (ace : Rep) (decode : AceDecode) (res : AceResDecode) :
    (machine.step newAceid (.addResource ace decode res)).acl =
      (machine.acl.ocSecAclUpdateRes newAceid (decode.update res)).1 := by
  simp only [step, aclDecodeAceResources]
  split <;> simp_all

end AclMachine

/-- Steps, and whether the part they come from is well-formed throughout. -/
abbrev AclSteps := Bool × List AclStep

/-- The second part is reached only when the first one is well-formed. -/
def AclSteps.seq (first second : AclSteps) : AclSteps :=
  if first.1 then (second.1, first.2 ++ second.2) else first

def resourceSteps (ace : Rep) (decode : AceDecode) : List Rep → AclSteps
  | [] => (true, [])
  | item :: items =>
      match aceDecodeResource item with
      | none => (false, [])
      | some res =>
          AclSteps.seq (true, [.addResource ace decode res])
            (resourceSteps ace decode items)

def itemSteps (item : Rep) : AclSteps :=
  match ocSecDecodeAce item with
  | none => (false, [])
  | some decode =>
      AclSteps.seq (true, [.beginAce decode])
        (AclSteps.seq (resourceSteps item decode decode.resources)
          (true, [.endAce]))

def aclist2Steps : List Rep → AclSteps
  | [] => (true, [])
  | item :: items => AclSteps.seq (itemSteps item) (aclist2Steps items)

def entrySteps : Bytes × RepValue → AclSteps
  | (name, .string value) =>
      if name = ascii "rowneruuid" then (true, [.setRowner value])
      else (true, [])
  | (_, .objectArray items) => aclist2Steps items
  | _ => (true, [])

def aclSteps : Rep → AclSteps
  | [] => (true, [])
  | entry :: rep => AclSteps.seq (entrySteps entry) (aclSteps rep)

/-- The ACEs of a payload: those of every array of objects. -/
def payloadAces (rep : Rep) : List Rep :=
  rep.flatMap fun entry =>
    match entry with
    | (_, .objectArray items) => items
    | _ => []

section Members

variable {decode : AceDecode} {step : AclStep}

theorem AclSteps.mem_seq {first second : AclSteps}
    (member : step ∈ (AclSteps.seq first second).2) :
    step ∈ first.2 ∨ step ∈ second.2 := by
  unfold AclSteps.seq at member
  split_ifs at member
  · exact List.mem_append.mp member
  · exact .inl member

theorem mem_resourceSteps {ace : Rep} {items : List Rep}
    (member : step ∈ (resourceSteps ace decode items).2) :
    ∃ res, step = .addResource ace decode res ∧
      ∃ resource ∈ items, aceDecodeResource resource = some res := by
  induction items with
  | nil => cases member
  | cons item items ih =>
      unfold resourceSteps at member
      cases decoded : aceDecodeResource item with
      | none =>
          rw [decoded] at member
          cases member
      | some first =>
          rw [decoded] at member
          rcases AclSteps.mem_seq member with here | later
          · exact ⟨first, List.mem_singleton.mp here, item,
              List.mem_cons_self, decoded⟩
          · obtain ⟨res, same, resource, inside, found⟩ := ih later
            exact ⟨res, same, resource, List.mem_cons_of_mem item inside,
              found⟩

theorem mem_itemSteps {item : Rep} (member : step ∈ (itemSteps item).2) :
    ∃ decode, ocSecDecodeAce item = some decode ∧
      (step = .beginAce decode ∨ step = .endAce ∨
        ∃ res, step = .addResource item decode res ∧
          ∃ resource ∈ decode.resources,
            aceDecodeResource resource = some res) := by
  unfold itemSteps at member
  cases decoded : ocSecDecodeAce item with
  | none =>
      rw [decoded] at member
      cases member
  | some own =>
      rw [decoded] at member
      refine ⟨own, rfl, ?_⟩
      rcases AclSteps.mem_seq member with here | later
      · exact .inl (List.mem_singleton.mp here)
      · rcases AclSteps.mem_seq later with resources | ending
        · exact .inr (.inr (mem_resourceSteps resources))
        · exact .inr (.inl (List.mem_singleton.mp ending))

theorem mem_aclist2Steps {items : List Rep}
    (member : step ∈ (aclist2Steps items).2) :
    ∃ item ∈ items, step ∈ (itemSteps item).2 := by
  induction items with
  | nil => cases member
  | cons item items ih =>
      rcases AclSteps.mem_seq member with here | later
      · exact ⟨item, List.mem_cons_self, here⟩
      · obtain ⟨other, inside, found⟩ := ih later
        exact ⟨other, List.mem_cons_of_mem item inside, found⟩

theorem mem_aclSteps {rep : Rep} (member : step ∈ (aclSteps rep).2) :
    (∃ value, step = .setRowner value) ∨
      ∃ item ∈ payloadAces rep, step ∈ (itemSteps item).2 := by
  induction rep with
  | nil => cases member
  | cons entry rep ih =>
      rcases AclSteps.mem_seq member with here | later
      · obtain ⟨name, value⟩ := entry
        cases value with
        | objectArray items =>
            obtain ⟨item, inside, found⟩ := mem_aclist2Steps here
            exact .inr ⟨item, List.mem_flatMap.mpr
              ⟨_, List.mem_cons_self, inside⟩, found⟩
        | string value =>
            unfold entrySteps at here
            simp only at here
            split_ifs at here
            · exact .inl ⟨value, List.mem_singleton.mp here⟩
            · cases here
        | _ => cases here
      · rcases ih later with owner | ⟨item, inside, found⟩
        · exact .inl owner
        · obtain ⟨source, present, own⟩ := List.mem_flatMap.mp inside
          exact .inr ⟨item, List.mem_flatMap.mpr
            ⟨source, List.mem_cons_of_mem entry present, own⟩, found⟩

end Members

section Runs

variable {newAceid : NewAceid}

private theorem ocSecDecodeAceResources_eq (ace : Rep) (decode : AceDecode)
    (items : List Rep) (machine : AclMachine) :
    let steps := resourceSteps ace decode items
    let final := runFrom (AclMachine.step newAceid) machine steps.2
    ocSecDecodeAceResources newAceid decode items machine.acl machine.data =
        (steps.1, final.acl, final.data) ∧
      final.applied = machine.applied ∧
      final.replaced = machine.replaced := by
  induction items generalizing machine with
  | nil => exact ⟨rfl, rfl, rfl⟩
  | cons item items ih =>
      unfold ocSecDecodeAceResources resourceSteps
      cases aceDecodeResource item with
      | none => exact ⟨rfl, rfl, rfl⟩
      | some res =>
          exact ih
            (AclMachine.step newAceid machine (.addResource ace decode res))

private theorem decodeAclist2Item_eq (item : Rep) (machine : AclMachine) :
    decodeAclist2Item newAceid item machine.result =
      ((itemSteps item).1, (runFrom (AclMachine.step newAceid) machine
        (itemSteps item).2).result) := by
  unfold decodeAclist2Item itemSteps
  cases ocSecDecodeAce item with
  | none => rfl
  | some decode =>
      obtain ⟨resources, applied, replaced⟩ :=
        @ocSecDecodeAceResources_eq newAceid item decode decode.resources
          (AclMachine.step newAceid machine (.beginAce decode))
      have run : ocSecDecodeAceResources newAceid decode decode.resources
          (machine.acl.unlinkReplaced decode).1 {} = _ := resources
      simp only [AclMachine.result, run]
      generalize resourceSteps item decode decode.resources = steps
        at applied replaced ⊢
      obtain ⟨ok, later⟩ := steps
      cases ok with
      | false =>
          simp only [AclSteps.seq, if_true, Bool.false_eq_true, if_false,
            List.singleton_append, runFrom_cons, applied]
          rfl
      | true =>
          simp only [AclSteps.seq, if_true, runFrom_append,
            List.singleton_append, runFrom_cons, runFrom_nil]
          simp only [AclMachine.step] at applied replaced ⊢
          rw [applied, replaced]

private theorem decodeAclist2_eq (items : List Rep) (machine : AclMachine) :
    decodeAclist2 newAceid items machine.result =
      ((aclist2Steps items).1, (runFrom (AclMachine.step newAceid) machine
        (aclist2Steps items).2).result) := by
  induction items generalizing machine with
  | nil => rfl
  | cons item items ih =>
      unfold decodeAclist2 aclist2Steps
      rw [decodeAclist2Item_eq]
      rcases itemSteps item with ⟨ok, steps⟩
      cases ok with
      | false => rfl
      | true =>
          simp only [AclSteps.seq, if_true, runFrom_append]
          exact ih _

private theorem decodeAclEntry_eq (entry : Bytes × RepValue)
    (machine : AclMachine) :
    decodeAclEntry newAceid entry machine.result =
      ((entrySteps entry).1, (runFrom (AclMachine.step newAceid) machine
        (entrySteps entry).2).result) := by
  obtain ⟨name, value⟩ := entry
  cases value with
  | string value =>
      by_cases isRowner : name = ascii "rowneruuid"
      · simp [decodeAclEntry, entrySteps, isRowner, AclMachine.result,
          AclMachine.step]
      · simp [decodeAclEntry, entrySteps, isRowner]
  | objectArray items => exact decodeAclist2_eq items machine
  | _ => rfl

private theorem decodeAclEntries_eq (rep : Rep) (machine : AclMachine) :
    decodeAclEntries newAceid rep machine.result =
      ((aclSteps rep).1, (runFrom (AclMachine.step newAceid) machine
        (aclSteps rep).2).result) := by
  induction rep generalizing machine with
  | nil => rfl
  | cons entry rep ih =>
      unfold decodeAclEntries aclSteps
      rw [decodeAclEntry_eq]
      rcases entrySteps entry with ⟨ok, steps⟩
      cases ok with
      | false => rfl
      | true =>
          simp only [AclSteps.seq, if_true, runFrom_append]
          exact ih _

/-- The steps that the provisioning state lets through. -/
def admittedSteps (dos : DosType) (fromStorage : Bool) (rep : Rep) :
    AclSteps :=
  if !fromStorage && rep.any (aclForbidden dos) then (false, [])
  else aclSteps rep

theorem ocSecDecodeAcl_eq_runFrom (newAceid : NewAceid) (dos : DosType)
    (fromStorage : Bool) (rep : Rep) (acl : Acl) :
    ocSecDecodeAcl newAceid dos fromStorage rep acl =
      ((admittedSteps dos fromStorage rep).1,
        (runFrom (AclMachine.step newAceid) (AclMachine.start acl)
          (admittedSteps dos fromStorage rep).2).result) := by
  unfold ocSecDecodeAcl admittedSteps
  split_ifs
  · rfl
  · exact decodeAclEntries_eq rep (AclMachine.start acl)

end Runs

end IotivityLite
