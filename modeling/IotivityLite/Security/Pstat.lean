import IotivityLite.Security.Acl

/-!
# The provisioning status

The data of `oc_pstat.c` and the decoder of its requests.  The decoder works
on a copy of the status; what it accepts depends on the state that it has read
so far, not on the state of the device.
-/

namespace IotivityLite

/-- `cm` and `tm` are unsigned numbers of 32 bits. -/
structure Pstat where
  s : DosType
  p : Bool
  isop : Bool
  cm : Nat
  tm : Nat
  om : Int
  sm : Int
  rowneruuid : Uuid
  resetInProgress : Bool
  deriving DecidableEq

/-- A number is stored in 32 bits; `none` is one that stands for no state. -/
def dosOfInt (value : Int) : Option DosType :=
  match (value % 2 ^ 32).toNat with
  | 0 => some .reset
  | 1 => some .rfotm
  | 2 => some .rfpro
  | 3 => some .rfnop
  | 4 => some .sreset
  | _ => none

def validTransition (current : DosType) (state : Option DosType) : Bool :=
  match current with
  | .reset => state == some .reset || state == some .rfotm
  | .rfotm => state != some .sreset
  | .rfpro | .rfnop => state != some .rfotm
  | .sreset => state != some .rfotm && state != some .rfnop

def pstatCheckPsState (ps : Pstat) : Bool :=
  match ps.s with
  | .rfpro => !ps.isop && ps.cm &&& 0xC3 == 0 && ps.tm &&& 0xC3 == 0
  | .rfnop => ps.isop && ps.cm &&& 0xC3 == 0 && ps.tm &&& 0xC3 == 0
  | .sreset => !ps.isop && ps.cm == 1 && ps.tm &&& 0xC3 == 0
  | .reset | .rfotm => !ps.isop && ps.cm &&& 0xC3 == 2 && ps.tm &&& 0xC3 == 0

inductive SwupdateAction where
  | isac
  | isvv
  | upgrade
  deriving DecidableEq, Repr

/-- The software update that a target mode asks for. -/
def targetModeAction (tm : Nat) : Option SwupdateAction :=
  if tm = 256 then some .isac
  else if tm = 64 then some .isvv
  else if tm = 128 then some .upgrade
  else none

/-- The copy of the status while a payload is decoded, which may hold a number
that stands for no state. -/
structure PstatDecode where
  s : Option DosType
  tm : Nat
  om : Int
  rowneruuid : Uuid
  transitionState : Bool
  targetMode : Bool
  deriving DecidableEq

def Pstat.startDecode (pstat : Pstat) : PstatDecode where
  s := some pstat.s
  tm := pstat.tm
  om := pstat.om
  rowneruuid := pstat.rowneruuid
  transitionState := false
  targetMode := false

@[simp] theorem Pstat.startDecode_s (pstat : Pstat) :
    pstat.startDecode.s = some pstat.s := rfl

def decodeDos : Rep → PstatDecode → Option PstatDecode
  | [], ps => some ps
  | (name, .int value) :: dos, ps =>
      if name = ascii "s" then
        decodeDos dos { ps with s := dosOfInt value, transitionState := true }
      else none
  | (name, _) :: dos, ps =>
      if name = ascii "p" then none else decodeDos dos ps

/-- The owner cannot be set in these states. -/
def ownerLocked (s : Option DosType) : Bool :=
  s == some .rfpro || s == some .rfnop

/-- Only the first two characters of a number's name are compared. -/
def decodePstatEntry (entry : Bytes × RepValue) (ps : PstatDecode) :
    Option PstatDecode :=
  match entry with
  | (name, .object dos) =>
      if name = ascii "dos" then decodeDos dos ps else none
  | (_, .bool _) => none
  | (name, .int value) =>
      if name.take 2 = ascii "tm" then
        some { ps with tm := (value % 2 ^ 32).toNat, targetMode := true }
      else if name.take 2 = ascii "om" then
        some { ps with om := Int.bmod value (2 ^ 32) }
      else none
  | (name, .string value) =>
      if name = ascii "rowneruuid" ∧ ownerLocked ps.s = false then
        some { ps with rowneruuid := ocStrToUuid value ps.rowneruuid }
      else none
  | (name, _) =>
      if name = ascii "rt" ∨ name = ascii "if" then some ps else none

def decodePstatEntries : Rep → PstatDecode → Option PstatDecode
  | [], ps => some ps
  | entry :: rep, ps => (decodePstatEntry entry ps).bind (decodePstatEntries rep)

/-! ## What a payload says

The decoder in terms of the values that the payload brings for each property,
in their order. -/

/-- The states of one `dos` object. -/
def dosEntries (dos : Rep) : List (Option DosType) :=
  dos.filterMap fun entry =>
    match entry with
    | (name, .int value) =>
        if name = ascii "s" then some (dosOfInt value) else none
    | _ => none

def dosEntryOk : Bytes × RepValue → Bool
  | (name, .int _) => decide (name = ascii "s")
  | (name, _) => decide (name ≠ ascii "p")

def entryDosStates : Bytes × RepValue → List (Option DosType)
  | (_, .object dos) => dosEntries dos
  | _ => []

def entryTargetModes : Bytes × RepValue → List Nat
  | (name, .int value) =>
      if name.take 2 = ascii "tm" then [(value % 2 ^ 32).toNat] else []
  | _ => []

def entryOperationalModes : Bytes × RepValue → List Int
  | (name, .int value) =>
      if name.take 2 = ascii "om" then [Int.bmod value (2 ^ 32)] else []
  | _ => []

def entryOwners : Bytes × RepValue → List Bytes
  | (_, .string value) => [value]
  | _ => []

def dosStates (rep : Rep) : List (Option DosType) := rep.flatMap entryDosStates

def targetModes (rep : Rep) : List Nat := rep.flatMap entryTargetModes

def operationalModes (rep : Rep) : List Int :=
  rep.flatMap entryOperationalModes

def owners (rep : Rep) : List Bytes := rep.flatMap entryOwners

/-- An entry that is acceptable in some state. -/
def entryOk : Bytes × RepValue → Bool
  | (name, .object dos) => decide (name = ascii "dos") && dos.all dosEntryOk
  | (_, .bool _) => false
  | (name, .int _) =>
      decide (name.take 2 = ascii "tm" ∨ name.take 2 = ascii "om")
  | (name, .string _) => decide (name = ascii "rowneruuid")
  | (name, _) => decide (name = ascii "rt" ∨ name = ascii "if")

/-- The last value, or the one from before. -/
def lastOr {α : Type} (before : α) (values : List α) : α :=
  values.getLast?.getD before

/-- Every owner is read in a state in which it can be set. -/
def ownersAdmitted : Option DosType → Rep → Bool
  | _, [] => true
  | s, entry :: rep =>
      ((entryOwners entry).isEmpty || !ownerLocked s) &&
        ownersAdmitted (lastOr s (entryDosStates entry)) rep

/-- The copy after a payload. -/
def PstatDecode.requested (ps : PstatDecode) (rep : Rep) : PstatDecode where
  s := lastOr ps.s (dosStates rep)
  tm := lastOr ps.tm (targetModes rep)
  om := lastOr ps.om (operationalModes rep)
  rowneruuid := (owners rep).foldl (fun uuid text => ocStrToUuid text uuid)
    ps.rowneruuid
  transitionState := ps.transitionState || !(dosStates rep).isEmpty
  targetMode := ps.targetMode || !(targetModes rep).isEmpty

section Specification

variable {ps : PstatDecode} {α : Type}

@[simp] theorem lastOr_nil (before : α) :
    lastOr before [] = before := rfl

theorem lastOr_mem {before : α} {values : List α} (given : values ≠ []) :
    lastOr before values ∈ values := by
  rw [lastOr, List.getLast?_eq_some_getLast given]
  exact List.getLast_mem given

theorem lastOr_append (before : α) (first second : List α) :
    lastOr before (first ++ second) = lastOr (lastOr before first) second := by
  cases second with
  | nil => simp [lastOr]
  | cons value values => simp [lastOr, List.getLast?_append]

private theorem isEmpty_append (first second : List α) :
    (first ++ second).isEmpty = (first.isEmpty && second.isEmpty) := by
  cases first with
  | nil => rfl
  | cons _ _ => rfl

variable (entry : Bytes × RepValue)

private theorem decodeDos_cons (dos : Rep) (ps : PstatDecode) :
    decodeDos (entry :: dos) ps =
      if dosEntryOk entry then
        decodeDos dos { ps with
          s := lastOr ps.s (dosEntries [entry])
          transitionState :=
            ps.transitionState || !(dosEntries [entry]).isEmpty }
      else none := by
  obtain ⟨name, value⟩ := entry
  cases value with
  | int value =>
      by_cases isState : name = ascii "s"
      · simp [decodeDos, isState, dosEntryOk, dosEntries, lastOr]
      · simp [decodeDos, isState, dosEntryOk]
  | _ =>
      by_cases isPending : name = ascii "p"
      · simp [decodeDos, isPending, dosEntryOk]
      · simp [decodeDos, isPending, dosEntryOk, dosEntries]

private theorem decodeDos_eq (dos : Rep) (ps : PstatDecode) :
    decodeDos dos ps =
      if dos.all dosEntryOk then
        some { ps with
          s := lastOr ps.s (dosEntries dos)
          transitionState := ps.transitionState || !(dosEntries dos).isEmpty }
      else none := by
  induction dos generalizing ps with
  | nil => simp [decodeDos, dosEntries]
  | cons entry dos ih =>
      have split : dosEntries (entry :: dos) =
          dosEntries [entry] ++ dosEntries dos := by
        unfold dosEntries
        rw [← List.filterMap_append, List.singleton_append]
      rw [decodeDos_cons, List.all_cons, split]
      cases dosEntryOk entry with
      | false => rfl
      | true =>
          rw [if_pos rfl, ih, Bool.true_and, lastOr_append]
          simp only [isEmpty_append, Bool.not_and, Bool.or_assoc]

private theorem requested_singleton (ps : PstatDecode) :
    ps.requested [entry] =
      { s := lastOr ps.s (entryDosStates entry)
        tm := lastOr ps.tm (entryTargetModes entry)
        om := lastOr ps.om (entryOperationalModes entry)
        rowneruuid := (entryOwners entry).foldl
          (fun uuid text => ocStrToUuid text uuid) ps.rowneruuid
        transitionState :=
          ps.transitionState || !(entryDosStates entry).isEmpty
        targetMode := ps.targetMode || !(entryTargetModes entry).isEmpty } := by
  simp only [PstatDecode.requested, dosStates, targetModes, operationalModes,
    owners, List.flatMap_cons, List.flatMap_nil, List.append_nil]

private theorem decodePstatEntry_of_admitted {entry : Bytes × RepValue}
    (ok : entryOk entry = true)
    (admitted : entryOwners entry ≠ [] → ownerLocked ps.s = false) :
    decodePstatEntry entry ps = some (ps.requested [entry]) := by
  rw [requested_singleton]
  obtain ⟨name, value⟩ := entry
  cases value with
  | object dos =>
      simp only [entryOk, Bool.and_eq_true, decide_eq_true_eq] at ok
      simp [decodePstatEntry, ok, decodeDos_eq, entryDosStates,
        entryTargetModes, entryOperationalModes, entryOwners]
  | bool value => cases ok
  | int value =>
      simp only [entryOk, decide_eq_true_eq] at ok
      have apart : ascii "om" ≠ ascii "tm" := by decide
      rcases ok with isTm | isOm
      · simp [decodePstatEntry, isTm, apart.symm, lastOr, entryDosStates,
          entryTargetModes, entryOperationalModes, entryOwners]
      · simp [decodePstatEntry, isOm, apart, lastOr, entryDosStates,
          entryTargetModes, entryOperationalModes, entryOwners]
  | string value =>
      simp only [entryOk, decide_eq_true_eq] at ok
      have unlocked := admitted (by simp [entryOwners])
      simp [decodePstatEntry, ok, unlocked, entryDosStates, entryTargetModes,
        entryOperationalModes, entryOwners]
  | _ =>
      simp only [entryOk, decide_eq_true_eq] at ok
      simp [decodePstatEntry, ok, entryDosStates, entryTargetModes,
        entryOperationalModes, entryOwners]

private theorem decodePstatEntry_of_refused {entry : Bytes × RepValue}
    (refused : entryOk entry = false ∨
      entryOwners entry ≠ [] ∧ ownerLocked ps.s = true) :
    decodePstatEntry entry ps = none := by
  obtain ⟨name, value⟩ := entry
  cases value with
  | object dos =>
      have bad := refused.resolve_right (by simp [entryOwners])
      simp only [entryOk, Bool.and_eq_false_iff, decide_eq_false_iff_not]
        at bad
      rcases bad with other | inside
      · simp [decodePstatEntry, other]
      · simp [decodePstatEntry, decodeDos_eq, inside]
  | bool value => rfl
  | int value =>
      have bad := refused.resolve_right (by simp [entryOwners])
      simp only [entryOk, decide_eq_false_iff_not, not_or] at bad
      simp [decodePstatEntry, bad]
  | string value =>
      simp only [entryOk, decide_eq_false_iff_not] at refused
      rcases refused with other | ⟨-, locked⟩
      · simp [decodePstatEntry, other]
      · simp [decodePstatEntry, locked]
  | _ =>
      have bad := refused.resolve_right (by simp [entryOwners])
      simp only [entryOk, decide_eq_false_iff_not] at bad
      simp [decodePstatEntry, bad]

private theorem requested_cons (rep : Rep) (ps : PstatDecode) :
    (ps.requested [entry]).requested rep = ps.requested (entry :: rep) := by
  simp only [PstatDecode.requested, dosStates, targetModes, operationalModes,
    owners, List.flatMap_cons, List.flatMap_nil, List.append_nil,
    lastOr_append, List.foldl_append, isEmpty_append, Bool.not_and,
    Bool.or_assoc]

theorem decodePstatEntries_eq (rep : Rep) (ps : PstatDecode) :
    decodePstatEntries rep ps =
      if rep.all entryOk = true ∧ ownersAdmitted ps.s rep = true then
        some (ps.requested rep)
      else none := by
  induction rep generalizing ps with
  | nil =>
      simp [decodePstatEntries, ownersAdmitted, PstatDecode.requested,
        dosStates, targetModes, operationalModes, owners]
  | cons entry rep ih =>
      unfold decodePstatEntries
      by_cases admitted : entryOk entry = true ∧
          (entryOwners entry ≠ [] → ownerLocked ps.s = false)
      · rw [decodePstatEntry_of_admitted admitted.1 admitted.2,
          Option.bind_some, ih, requested_cons]
        have owner : ((entryOwners entry).isEmpty || !ownerLocked ps.s) =
            true := by
          cases given : entryOwners entry with
          | nil => rfl
          | cons _ _ => simp [admitted.2 (by simp [given])]
        rw [List.all_cons, admitted.1, Bool.true_and, ownersAdmitted, owner,
          Bool.true_and, requested_singleton]
      · rw [decodePstatEntry_of_refused, Option.bind_none, if_neg]
        · rintro ⟨all, owners⟩
          rw [List.all_cons, Bool.and_eq_true] at all
          rw [ownersAdmitted, Bool.and_eq_true, Bool.or_eq_true,
            Bool.not_eq_true'] at owners
          refine admitted ⟨all.1, fun given => owners.1.resolve_left ?_⟩
          rwa [List.isEmpty_iff]
        · rw [not_and_or, Bool.not_eq_true, Classical.not_imp,
            Bool.not_eq_false] at admitted
          exact admitted

end Specification

end IotivityLite
