import IotivityLite.Security.AclRun
import IotivityLite.Security.AclStorage

/-!
# Lists that payloads lead to

The lists that `oc_sec_decode_acl` builds up from an empty one.  A run
completes when every aceid that is drawn is a new one, which is when the loop
that draws it ends, and when the assertions on the hrefs of new resources
hold.  Such lists can be stored: their aceids differ, and every entry has
resources, each with an href or a wildcard.
-/

namespace IotivityLite

/-- The assertions of `oc_sec_add_new_ace_res` hold. -/
def Acl.AssertsHref (acl : Acl) (update : AceUpdate) : Prop :=
  acl.Adds update → ∀ href, update.href = some href → href.head? = some 47

/-- The loop of `acl_get_new_aceid` ends with this aceid. -/
def Acl.DrawsAceid (newAceid : NewAceid) (acl : Acl) : Prop :=
  IsAceid (newAceid acl.allocated acl.aces) ∧
    AceidUnused acl (newAceid acl.allocated acl.aces)

def AclMachine.Completes (newAceid : NewAceid) (machine : AclMachine) :
    AclStep → Prop
  | .addResource _ decode res =>
      machine.acl.AssertsHref (decode.update res) ∧
        (decode.aceid = -1 → machine.acl.DrawsAceid newAceid)
  | _ => True

/-- Lists that payloads lead to, whether they are accepted or not. -/
inductive Acl.Reachable (newAceid : NewAceid) : Acl → Prop where
  | empty : Acl.Reachable newAceid ⟨[], Uuid.nil, 0⟩
  | decode {acl : Acl} (dos : DosType) (fromStorage : Bool) (rep : Rep) :
      Acl.Reachable newAceid acl →
      Along (AclMachine.step newAceid) (AclMachine.Completes newAceid)
        (AclMachine.start acl) (admittedSteps dos fromStorage rep).2 →
      Acl.Reachable newAceid
        (ocSecDecodeAcl newAceid dos fromStorage rep acl).2.acl

/-- An href begins with a slash. -/
def AceRes.Rooted (res : AceRes) : Prop :=
  res.href ≠ [] → res.href.head? = some 47

structure Ace.Valid (ace : Ace) : Prop extends ace.Storable where
  rooted : ∀ res ∈ ace.resources, res.Rooted

structure Acl.Valid (acl : Acl) : Prop where
  each : ∀ ace ∈ acl.aces, ace.Valid
  distinct : (acl.aces.map (·.aceid)).Nodup

/-- While the resources of an entry are read, an entry with its aceid is the
one they are added to. -/
def Tied (decode : AceDecode) (acl : Acl) : Prop :=
  (decode.aceid = -1 ∨ IsAceid decode.aceid) ∧
    ∀ ace ∈ acl.aces, decode.aceid ≠ -1 → ace.aceid = decode.aceid →
      ∀ res, (decode.update res).query.accepts ace = true

section Updates

variable {newAceid : NewAceid} {acl : Acl} {decode : AceDecode}
  {res : AceResDecode}

theorem Acl.Valid.sublist {other : Acl} (valid : acl.Valid)
    (fewer : other.aces.Sublist acl.aces) : other.Valid :=
  ⟨fun ace member => valid.each ace (fewer.subset member),
    valid.distinct.sublist (fewer.map _)⟩

theorem Tied.sublist {other : Acl} (tied : Tied decode acl)
    (fewer : other.aces.Sublist acl.aces) : Tied decode other :=
  ⟨tied.1, fun ace member => tied.2 ace (fewer.subset member)⟩

theorem added_storable {added : AceRes}
    (asserted : ∀ href, res.href = some href → href.head? = some 47)
    (new : ocSecAddNewAceRes res.href res.wildcard = some added) :
    added.storable ∧ added.Rooted := by
  unfold ocSecAddNewAceRes at new
  split at new <;> rename_i given
  · cases new
  · cases new
    cases href : res.href with
    | none => exact ⟨.inr fun none => given ⟨none, href⟩, fun some => by
        cases some rfl⟩
    | some text =>
        have rooted := asserted text href
        refine ⟨.inl ?_, fun _ => rooted⟩
        rintro rfl
        cases rooted

theorem accepts_resources (query : AceQuery) (ace : Ace)
    (resources : List AceRes) :
    query.accepts { ace with resources := resources } = query.accepts ace := by
  obtain ⟨subject, aceid, permission, tag⟩ := query
  cases subject <;> rfl

theorem Ace.Valid.add {ace : Ace} (valid : ace.Valid) {added : AceRes}
    (storable : added.storable ∧ added.Rooted) :
    ({ ace with resources := ace.resources ++ [added] } : Ace).Valid where
  aceid := valid.aceid
  nonempty := by simp
  resources := List.forall_mem_append.mpr
    ⟨valid.resources, List.forall_mem_singleton.mpr storable.1⟩
  rooted := List.forall_mem_append.mpr
    ⟨valid.rooted, List.forall_mem_singleton.mpr storable.2⟩

theorem Acl.Valid.set (valid : acl.Valid) {index : Nat} {base ace : Ace}
    (here : acl.aces[index]? = some base) (same : ace.aceid = base.aceid)
    (valid' : ace.Valid) :
    ({ acl with aces := acl.aces.set index ace } : Acl).Valid where
  each other member := by
    rcases List.mem_or_eq_of_mem_set member with old | rfl
    · exact valid.each other old
    · exact valid'
  distinct := by
    obtain ⟨inside, value⟩ := List.getElem?_eq_some_iff.mp here
    have unchanged : (acl.aces.map (·.aceid)).set index ace.aceid =
        acl.aces.map (·.aceid) := by
      rw [same, ← value]
      apply List.ext_getElem
      · simp
      · intro place _ _
        rw [List.getElem_set]
        split <;> rename_i hit
        · subst hit
          simp
        · rfl
    dsimp only
    rw [List.map_set, unchanged]
    exact valid.distinct

theorem Tied.set (tied : Tied decode acl) {index : Nat} {base : Ace}
    (here : acl.aces[index]? = some base) (resources : List AceRes) :
    Tied decode { acl with
      aces := acl.aces.set index { base with resources := resources } } := by
  refine ⟨tied.1, fun ace member given same res => ?_⟩
  rcases List.mem_or_eq_of_mem_set member with old | rfl
  · exact tied.2 ace old given same res
  · rw [accepts_resources]
    exact tied.2 base (List.mem_of_getElem? here) given same res

theorem accepts_newAce (newAceid : NewAceid) (acl : Acl)
    (given : decode.aceid ≠ -1) (first second : AceResDecode) :
    (decode.update second).query.accepts
      (acl.newAce newAceid (decode.update first)) = true := by
  have subject : ocAceHasMatchingSubject
      (acl.newAce newAceid (decode.update first)) decode.subjectOrZero =
        true := by
    cases same : decode.subjectOrZero <;>
      simp [ocAceHasMatchingSubject, Acl.newAce, AceDecode.update, same]
  have aceid : (acl.newAce newAceid (decode.update first)).aceid =
      decode.aceid := if_neg given
  simp [AceQuery.accepts, AceUpdate.query, AceDecode.update,
    ocAceHasMatchingTag] at subject aceid ⊢
  refine ⟨⟨⟨.inr aceid, .inr ?_⟩, ?_⟩, subject⟩ <;> rfl

theorem Acl.Valid.update (valid : acl.Valid) (tied : Tied decode acl)
    (asserts : acl.AssertsHref (decode.update res))
    (draws : decode.aceid = -1 → acl.DrawsAceid newAceid) :
    (acl.ocSecAclUpdateRes newAceid (decode.update res)).1.Valid ∧
      Tied decode (acl.ocSecAclUpdateRes newAceid (decode.update res)).1 := by
  cases found : acl.aces.findIdx? (decode.update res).query.accepts with
  | some index =>
      obtain ⟨base, here, first⟩ := Acl.getElem?_of_findIdx? found
      rw [Acl.ocSecAclUpdateRes_of_found found here, ocSecAceGetOrAddRes]
      cases present : ocSecAceFindResource base (decode.update res).href
          (decode.update res).wildcard.bits with
      | some old =>
          exact ⟨valid.set here rfl (valid.each base
            (List.mem_of_getElem? here)), tied.set here base.resources⟩
      | none =>
          cases new : ocSecAddNewAceRes (decode.update res).href
              (decode.update res).wildcard with
          | none =>
              exact ⟨valid.sublist (List.eraseIdx_sublist _ _),
                tied.sublist (List.eraseIdx_sublist _ _)⟩
          | some added =>
              have adds : acl.Adds (decode.update res) := by
                rw [Acl.Adds, first]
                exact present
              have storable := added_storable (asserts adds) new
              exact ⟨valid.set here rfl ((valid.each base
                (List.mem_of_getElem? here)).add storable),
                tied.set here _⟩
  | none =>
      have absent := List.findIdx?_eq_none_iff.mp found
      rw [Acl.ocSecAclUpdateRes_of_absent found]
      cases new : ocSecAddNewAceRes (decode.update res).href
          (decode.update res).wildcard with
      | none =>
          dsimp only
          exact ⟨⟨valid.each, valid.distinct⟩, tied.1, tied.2⟩
      | some added =>
          have adds : acl.Adds (decode.update res) := by
            rw [Acl.Adds, ocSecAceFindSubject, List.find?_eq_none.mpr]
            · trivial
            · simpa using absent
          have storable := added_storable (asserts adds) new
          -- the new aceid is the one of the payload or a drawn one
          have aceid : IsAceid (acl.newAce newAceid
                (decode.update res)).aceid ∧
              AceidUnused acl (acl.newAce newAceid
                (decode.update res)).aceid := by
            by_cases given : decode.aceid = -1
            · have drawn : (acl.newAce newAceid (decode.update res)).aceid =
                  newAceid acl.allocated acl.aces := if_pos given
              rw [drawn]
              exact draws given
            · have fits := tied.1.resolve_left given
              have same : (acl.newAce newAceid (decode.update res)).aceid =
                  decode.aceid := if_neg given
              rw [same]
              refine ⟨fits, fun other member same => ?_⟩
              have accepted := tied.2 other member given same res
              rw [absent other member] at accepted
              cases accepted
          refine ⟨⟨?_, ?_⟩, tied.1, ?_⟩
          · refine List.forall_mem_append.mpr ⟨valid.each,
              List.forall_mem_singleton.mpr ?_⟩
            exact ⟨⟨aceid.1, by simp, by simpa using storable.1⟩,
              by simpa using storable.2⟩
          · rw [List.map_append, List.nodup_append]
            refine ⟨valid.distinct, by simp, ?_⟩
            rintro first member second last rfl
            obtain ⟨other, inside, rfl⟩ := List.mem_map.mp member
            exact aceid.2 other inside (List.mem_singleton.mp last)
          · intro ace member given same later
            rcases List.mem_append.mp member with old | last
            · exact tied.2 ace old given same later
            · rw [List.mem_singleton.mp last, accepts_resources]
              exact accepts_newAce newAceid acl given res later

theorem Tied.unlinkReplaced (valid : acl.Valid)
    (isAceid : decode.aceid = -1 ∨ IsAceid decode.aceid) :
    Tied decode (acl.unlinkReplaced decode).1 := by
  refine ⟨isAceid, fun ace member given same res => ?_⟩
  exfalso
  unfold Acl.unlinkReplaced at member
  split at member <;> rename_i taken
  · unfold Acl.removeByAceid at member
    split at member
    · next found =>
        have absent := List.findIdx?_eq_none_iff.mp found ace member
        simp [same] at absent
    · next index found =>
        obtain ⟨inside, first, -⟩ :=
          List.findIdx?_eq_some_iff_getElem.mp found
        obtain ⟨place, below, different, here⟩ :=
          List.mem_eraseIdx_iff_getElem.mp member
        have both : (acl.aces.map (·.aceid))[place]? =
            (acl.aces.map (·.aceid))[index]? := by
          simp only [List.getElem?_map, List.getElem?_eq_getElem below,
            List.getElem?_eq_getElem inside, Option.map_some, here, same,
            beq_iff_eq.mp first]
        exact different ((List.getElem?_inj (by simpa using below)
          valid.distinct).mp both)
  · have unique : acl.uniqueAceid decode.aceid = true := by
      by_contra used
      exact taken ⟨given, used⟩
    have other := List.all_eq_true.mp unique ace member
    simp [same] at other

end Updates

theorem aceDecodeProperty_aceid {name : Bytes} {value : RepValue}
    {start decode : AceDecode}
    (fits : Int.bmod start.aceid (2 ^ 32) = start.aceid)
    (decoded : aceDecodeProperty name value start = some decode) :
    Int.bmod decode.aceid (2 ^ 32) = decode.aceid := by
  cases value with
  | int number =>
      simp only [aceDecodeProperty, aceDecodeIntProperty] at decoded
      split_ifs at decoded <;> obtain rfl := Option.some.inj decoded
      · exact fits
      · exact Int.bmod_bmod
  | string text =>
      simp only [aceDecodeProperty] at decoded
      split_ifs at decoded <;> obtain rfl := Option.some.inj decoded <;>
        exact fits
  | object rep =>
      simp only [aceDecodeProperty] at decoded
      split_ifs at decoded
      obtain ⟨subject, -, rfl⟩ := Option.map_eq_some_iff.mp decoded
      exact fits
  | objectArray items =>
      simp only [aceDecodeProperty] at decoded
      split_ifs at decoded
      obtain rfl := Option.some.inj decoded
      exact fits
  | nil | array =>
      simp only [aceDecodeProperty] at decoded
      split_ifs at decoded
      obtain rfl := Option.some.inj decoded
      exact fits
  | _ => cases decoded

theorem isAceid_of_ocSecDecodeAce {item : Rep} {decode : AceDecode}
    (decoded : ocSecDecodeAce item = some decode) :
    decode.aceid = -1 ∨ IsAceid decode.aceid := by
  have read : ∀ (rep : Rep) (start : AceDecode),
      Int.bmod start.aceid (2 ^ 32) = start.aceid →
      ocSecDecodeAceFrom rep start = some decode →
      Int.bmod decode.aceid (2 ^ 32) = decode.aceid := by
    intro rep
    induction rep with
    | nil =>
        intro start fits same
        obtain rfl : start = decode := Option.some.inj same
        exact fits
    | cons entry rep ih =>
        obtain ⟨name, value⟩ := entry
        intro start fits same
        obtain ⟨next, here, later⟩ := Option.bind_eq_some_iff.mp same
        exact ih next (aceDecodeProperty_aceid fits here) later
  by_cases given : decode.aceid = -1
  · exact .inl given
  · exact .inr ⟨read item {} (by decide) decoded, given⟩

/-- Runs of the steps that complete keep the list valid. -/
def KeepsValid (newAceid : NewAceid) (steps : List AclStep) : Prop :=
  ∀ machine : AclMachine, machine.acl.Valid →
    Along (AclMachine.step newAceid) (AclMachine.Completes newAceid) machine
      steps →
    (runFrom (AclMachine.step newAceid) machine steps).acl.Valid

section Runs

variable {newAceid : NewAceid}

theorem KeepsValid.append {first second : List AclStep}
    (one : KeepsValid newAceid first) (two : KeepsValid newAceid second) :
    KeepsValid newAceid (first ++ second) := by
  intro machine valid along
  obtain ⟨here, later⟩ := along_append.mp along
  rw [runFrom_append]
  exact two _ (one machine valid here) later

theorem KeepsValid.seq {first second : AclSteps}
    (one : KeepsValid newAceid first.2)
    (two : KeepsValid newAceid second.2) :
    KeepsValid newAceid (AclSteps.seq first second).2 := by
  unfold AclSteps.seq
  split
  · exact one.append two
  · exact one

theorem keepsValid_nil : KeepsValid newAceid [] := fun _ valid _ => valid

theorem valid_resourceSteps {own : Rep} {decode : AceDecode} {items : List Rep}
    {machine : AclMachine} (valid : machine.acl.Valid)
    (tied : Tied decode machine.acl)
    (along : Along (AclMachine.step newAceid) (AclMachine.Completes newAceid)
      machine (resourceSteps own decode items).2) :
    (runFrom (AclMachine.step newAceid) machine
      (resourceSteps own decode items).2).acl.Valid := by
  have same : ∀ step ∈ (resourceSteps own decode items).2,
      ∃ res, step = .addResource own decode res := by
    intro step member
    obtain ⟨res, same, -⟩ := mem_resourceSteps member
    exact ⟨res, same⟩
  have kept := @Along.invariant _ _ _ _ machine
    (fun machine => machine.acl.Valid ∧ Tied decode machine.acl) _
    (along.and_forall same) ⟨valid, tied⟩ ?_
  · exact kept.1
  · rintro before input ⟨valid, tied⟩ ⟨completes, res, rfl⟩
    rw [AclMachine.acl_step_addResource]
    exact valid.update tied completes.1 completes.2

theorem keepsValid_itemSteps (item : Rep) :
    KeepsValid newAceid (itemSteps item).2 := by
  unfold itemSteps
  cases decoded : ocSecDecodeAce item with
  | none => exact keepsValid_nil
  | some decode =>
      intro machine valid along
      have unlinked : (machine.acl.unlinkReplaced decode).1.Valid := by
        rcases machine.acl.unlinkReplaced_cases decode with
          same | ⟨index, ace, -, -, -, same⟩
        · rw [same]
          exact valid
        · rw [same]
          exact valid.sublist (List.eraseIdx_sublist _ _)
      have tied := Tied.unlinkReplaced valid
        (isAceid_of_ocSecDecodeAce decoded)
      have ending : KeepsValid newAceid [.endAce] := fun _ valid _ => valid
      simp only [AclSteps.seq, if_true, List.singleton_append, Along,
        runFrom_cons] at along ⊢
      split at along <;> rename_i complete
      · rw [if_pos complete]
        obtain ⟨here, later⟩ := along_append.mp along.2
        rw [runFrom_append]
        exact ending _ (valid_resourceSteps unlinked tied here) later
      · rw [if_neg complete]
        exact valid_resourceSteps unlinked tied along.2

theorem keepsValid_aclist2Steps (items : List Rep) :
    KeepsValid newAceid (aclist2Steps items).2 := by
  induction items with
  | nil => exact keepsValid_nil
  | cons item items ih => exact (keepsValid_itemSteps item).seq ih

theorem keepsValid_entrySteps (entry : Bytes × RepValue) :
    KeepsValid newAceid (entrySteps entry).2 := by
  obtain ⟨name, value⟩ := entry
  cases value with
  | objectArray items => exact keepsValid_aclist2Steps items
  | string text =>
      simp only [entrySteps]
      split
      · exact fun _ valid _ => ⟨valid.each, valid.distinct⟩
      · exact keepsValid_nil
  | _ => exact keepsValid_nil

theorem keepsValid_aclSteps (rep : Rep) :
    KeepsValid newAceid (aclSteps rep).2 := by
  induction rep with
  | nil => exact keepsValid_nil
  | cons entry rep ih => exact (keepsValid_entrySteps entry).seq ih

theorem Acl.Reachable.valid {acl : Acl}
    (reachable : Acl.Reachable newAceid acl) : acl.Valid := by
  induction reachable with
  | empty => exact ⟨by simp, by simp⟩
  | @decode acl dos fromStorage rep _ along ih =>
      rw [ocSecDecodeAcl_eq_runFrom]
      have kept : KeepsValid newAceid
          (admittedSteps dos fromStorage rep).2 := by
        unfold admittedSteps
        split
        · exact keepsValid_nil
        · exact keepsValid_aclSteps rep
      exact kept _ ih along

end Runs

end IotivityLite
