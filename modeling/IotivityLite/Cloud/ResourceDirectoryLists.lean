import IotivityLite.Cloud.ResourceDirectory
import IotivityLite.Foundation.Keyed

/-!
# The lists of links stay apart

Every resource is in at most one list, whatever happens.  That an unpublish
request names no resource that the application wants to be published needs
more: the link to unpublish has no resource any more, so adding the resource
again does not find it.
-/

namespace IotivityLite

variable {Resource : Type}

/-- The directory with the resources that the application added last and did
not delete. -/
structure RdSystem (Resource : Type) where
  directory : RdContext Resource
  wanted : Resource → Bool

section System

variable [DecidableEq Resource]

def wantedAfter (wanted : Resource → Bool) : RdEvent Resource → Resource → Bool
  | .addResource res _ _, other => other == res || wanted other
  | .deleteResource res _, other => other != res && wanted other
  | _, other => wanted other

def RdSystem.next (setup : RdSetup Resource) (system : RdSystem Resource)
    (event : RdEvent Resource) : RdSystem Resource where
  directory := (rdStep setup system.directory event).1
  wanted := wantedAfter system.wanted event

def RdSystem.initial : RdSystem Resource := ⟨.initial, fun _ => false⟩

end System

namespace RdContext

/-- The links that stand for resources to be published. -/
def listed (ctx : RdContext Resource) : List (RdLink Resource) :=
  ctx.rdPublishResources ++ ctx.rdPublishedResources

/-- The references to resources from all three lists. -/
def references (ctx : RdContext Resource) : List Resource :=
  (ctx.rdPublishResources ++ ctx.rdPublishedResources ++
    ctx.rdDeleteResources).filterMap (·.resource)

/-- A link that was made for the resource waits to be unpublished. -/
def Unpublishing (ctx : RdContext Resource) (res : Resource) : Prop :=
  ∃ link ∈ ctx.rdDeleteResources, link.madeFor = res

end RdContext

/-! ## Sending

Every step first changes the lists and then may send one unpublish request,
with links of the list to delete. -/

/-- What a step does to the lists before it sends. -/
def rdPrepare [DecidableEq Resource] (setup : RdSetup Resource)
    (ctx : RdContext Resource) : RdEvent Resource → RdContext Resource
  | .addResource res allocated answers =>
      (ocCloudAddResource setup answers allocated res ctx).1.1
  | .deleteResource res answers =>
      { ctx with
        rdPublishResources := rdLinkRemoveByResource ctx.rdPublishResources res
        rdPublishedResources :=
          rdLinkRemoveByResource ctx.rdPublishedResources res
        rdDeleteResources :=
          if setup.ocSecurity && answers.unowned then
            rdLinkRemoveByResource ctx.rdDeleteResources res
          else ctx.rdDeleteResources ++
            ((rdLinkFind ctx.rdPublishedResources res).map
              (fun link => { link with resource := none })).toList }
  | .publishResponse changed links =>
      cloudPublishResourcesHandler setup changed links ctx
  | .republish _ =>
      if ctx.republish then movePublishedToPublishResources ctx else ctx
  | .publishResources _ => movePublishedToPublishResources ctx
  | .resetContext => cloudRdResetContext ctx
  | .unpublishResponse .. | .setStatus .. | .statusChanged _ => ctx

/-- The links that are sent come from the list to delete. -/
structure RdSends (prepared : RdContext Resource)
    (result : RdContext Resource × List (RdRequest Resource)) : Prop where
  publish : result.1.rdPublishResources = prepared.rdPublishResources
  published : result.1.rdPublishedResources = prepared.rdPublishedResources
  delete : ∀ link ∈ result.1.rdDeleteResources,
    link ∈ prepared.rdDeleteResources
  named : ∀ links, RdRequest.unpublish links ∈ result.2 →
    ∀ link ∈ links, link ∈ prepared.rdDeleteResources

section Sending

variable {setup : RdSetup Resource}
  {ctx prepared : RdContext Resource} {answers : RdAnswers}

theorem rdDeleteFill_append (written links : List (RdLink Resource)) :
    (rdDeleteFill setup written links).1 ++
      (rdDeleteFill setup written links).2 = written ++ links := by
  induction links generalizing written with
  | nil => simp [rdDeleteFill]
  | cons link rest ih =>
      unfold rdDeleteFill
      split_ifs
      · rw [ih, List.append_assoc, List.singleton_append]
      · rfl

theorem RdSends.of_publish
    {result : RdContext Resource × List (RdRequest Resource)}
    (publish : result.1.rdPublishResources = prepared.rdPublishResources)
    (published :
      result.1.rdPublishedResources = prepared.rdPublishedResources)
    (delete : result.1.rdDeleteResources = prepared.rdDeleteResources)
    (none_sent : ∀ links, RdRequest.unpublish links ∉ result.2) :
    RdSends prepared result where
  publish := publish
  published := published
  delete := by
    rw [delete]
    intro link member
    exact member
  named := fun links sent => absurd sent (none_sent links)

theorem unpublish_not_mem_cloudPublishResources
    (links : List (RdLink Resource)) :
    RdRequest.unpublish links ∉ cloudPublishResources setup answers ctx := by
  unfold cloudPublishResources
  split_ifs
  all_goals simp

theorem rdSends_cloudDeleteResources :
    RdSends ctx (cloudDeleteResources setup answers ctx) := by
  have filled := @rdDeleteFill_append _ setup [] ctx.rdDeleteResources
  rw [List.nil_append] at filled
  unfold cloudDeleteResources
  simp only
  split_ifs
  · exact .of_publish rfl rfl rfl (by simp)
  · exact .of_publish rfl rfl rfl (by simp)
  · exact .of_publish rfl rfl rfl (by simp)
  all_goals
    refine ⟨rfl, rfl, ?_, ?_⟩
  · exact fun link member => member
  · intro links sent link member
    obtain rfl := RdRequest.unpublish.inj (List.mem_singleton.mp sent)
    rw [← filled]
    exact List.mem_append_left _ member
  · intro link member
    rw [← filled]
    exact List.mem_append_right _ member
  · intro links sent link member
    obtain rfl := RdRequest.unpublish.inj (List.mem_singleton.mp sent)
    rw [← filled]
    exact List.mem_append_left _ member

theorem rdSends_cloudDeleteResourcesIfAny :
    RdSends ctx (cloudDeleteResourcesIfAny setup answers ctx) := by
  unfold cloudDeleteResourcesIfAny
  split_ifs
  · exact .of_publish rfl rfl rfl (by simp)
  · exact rdSends_cloudDeleteResources

theorem RdSends.with_publish
    {result : RdContext Resource × List (RdRequest Resource)}
    {requests : List (RdRequest Resource)}
    (sends : RdSends prepared result)
    (others : ∀ links, RdRequest.unpublish links ∉ requests) :
    RdSends prepared (result.1, requests ++ result.2) := by
  refine ⟨sends.publish, sends.published, sends.delete, ?_⟩
  intro links sent
  rcases List.mem_append.mp sent with other | sent
  · exact absurd other (others links)
  · exact sends.named links sent

theorem rdSends_rdStep [DecidableEq Resource] (setup : RdSetup Resource)
    (ctx : RdContext Resource) (event : RdEvent Resource) :
    RdSends (rdPrepare setup ctx event) (rdStep setup ctx event) := by
  cases event with
  | addResource res allocated answers =>
      refine .of_publish rfl rfl rfl ?_
      intro links
      change RdRequest.unpublish links ∉
        (ocCloudAddResource setup answers allocated res ctx).1.2
      unfold ocCloudAddResource
      split_ifs
      · simp
      · simp
      · cases allocated with
        | none => simp
        | some ins => exact unpublish_not_mem_cloudPublishResources links
  | deleteResource res answers =>
      unfold rdStep rdPrepare ocCloudDeleteResource
      simp only
      by_cases unowned : (setup.ocSecurity && answers.unowned) = true
      · rw [if_pos unowned, if_pos unowned]
        exact .of_publish rfl rfl rfl (by simp)
      · rw [if_neg unowned, if_neg unowned]
        cases rdLinkFind ctx.rdPublishedResources res with
        | none =>
            refine .of_publish rfl rfl ?_ (by simp)
            simp
        | some link => exact rdSends_cloudDeleteResources
  | publishResponse changed links =>
      exact .of_publish rfl rfl rfl (by simp [rdStep])
  | unpublishResponse internal answers =>
      unfold rdStep rdPrepare deleteResourcesHandler
      simp only
      split_ifs
      · exact .of_publish rfl rfl rfl (by simp)
      · exact rdSends_cloudDeleteResources
  | setStatus loggedIn refreshedToken =>
      exact .of_publish rfl rfl rfl (by simp [rdStep])
  | statusChanged answers =>
      unfold rdStep rdPrepare cloudRdManagerStatusChanged
      simp only
      split_ifs
      · exact .of_publish rfl rfl rfl (by simp)
      · exact .of_publish rfl rfl rfl (by simp)
      · have sends := @rdSends_cloudDeleteResourcesIfAny _ setup ctx answers
        obtain ⟨publish, published, delete, named⟩ := sends
        exact ⟨publish, published, delete, named⟩
      · obtain ⟨publish, published, delete, named⟩ :=
          (@rdSends_cloudDeleteResourcesIfAny _ setup ctx
            answers).with_publish
            (@unpublish_not_mem_cloudPublishResources _ setup ctx answers)
        exact ⟨publish, published, delete, named⟩
  | republish answers =>
      unfold rdStep rdPrepare publishPublishedResources
      simp only
      split_ifs
      · exact .of_publish rfl rfl rfl
          unpublish_not_mem_cloudPublishResources
      · exact .of_publish rfl rfl rfl (by simp)
  | publishResources answers =>
      exact rdSends_cloudDeleteResourcesIfAny.with_publish
        unpublish_not_mem_cloudPublishResources
  | resetContext => exact .of_publish rfl rfl rfl (by simp [rdStep])

end Sending

/-- The listed links stand for different resources that are wanted, and the
links to unpublish have no resource. -/
structure RdLinked (wanted : Resource → Bool)
    (listed deleting : List (RdLink Resource)) : Prop where
  resource : ∀ link ∈ listed, link.resource = some link.madeFor
  distinct : (listed.map (·.resource)).Nodup
  asked : ∀ link ∈ listed, wanted link.madeFor = true
  cleared : ∀ link ∈ deleting, link.resource = none

section Linked

variable {wanted : Resource → Bool}
  {listed listed' deleting deleting' : List (RdLink Resource)}

theorem RdLinked.of_perm (linked : RdLinked wanted listed deleting)
    (permuted : listed.Perm listed')
    (fewer : ∀ link ∈ deleting', link ∈ deleting) :
    RdLinked wanted listed' deleting' where
  resource := fun link member =>
    linked.resource link (permuted.mem_iff.mpr member)
  distinct := (permuted.map _).nodup_iff.mp linked.distinct
  asked := fun link member => linked.asked link (permuted.mem_iff.mpr member)
  cleared := fun link member => linked.cleared link (fewer link member)

theorem RdLinked.of_asked {wanted' : Resource → Bool}
    (linked : RdLinked wanted listed deleting)
    (asked : ∀ link ∈ listed, wanted' link.madeFor = true) :
    RdLinked wanted' listed deleting :=
  ⟨linked.resource, linked.distinct, asked, linked.cleared⟩

theorem RdLinked.reissue {link : RdLink Resource} {rest : List (RdLink Resource)}
    (linked : RdLinked wanted (link :: rest) deleting) (ins : Int) :
    RdLinked wanted ({ link with ins := ins } :: rest) deleting where
  resource := by
    have known := List.forall_mem_cons.mp linked.resource
    exact List.forall_mem_cons.mpr known
  distinct := linked.distinct
  asked := by
    have known := List.forall_mem_cons.mp linked.asked
    exact List.forall_mem_cons.mpr known
  cleared := linked.cleared

theorem RdLinked.cons {link : RdLink Resource}
    (linked : RdLinked wanted listed deleting)
    (resource : link.resource = some link.madeFor)
    (fresh : ∀ other ∈ listed, other.resource ≠ link.resource)
    (asked : wanted link.madeFor = true) :
    RdLinked wanted (link :: listed) deleting where
  resource := List.forall_mem_cons.mpr ⟨resource, linked.resource⟩
  distinct := by
    rw [List.map_cons, List.nodup_cons]
    refine ⟨?_, linked.distinct⟩
    intro member
    obtain ⟨other, known, same⟩ := List.mem_map.mp member
    exact fresh other known same
  asked := List.forall_mem_cons.mpr ⟨asked, linked.asked⟩
  cleared := linked.cleared

theorem RdLinked.references_nodup {ctx : RdContext Resource}
    (linked : RdLinked wanted ctx.listed ctx.rdDeleteResources) :
    ctx.references.Nodup := by
  have none_deleting :
      ctx.rdDeleteResources.filterMap (·.resource) = [] := by
    rw [List.filterMap_eq_nil_iff]
    exact linked.cleared
  have same : ctx.listed.filterMap (·.resource) =
      ctx.listed.map (·.madeFor) := by
    rw [← List.filterMap_eq_map]
    apply List.filterMap_congr
    intro link member
    exact linked.resource link member
  have known : (ctx.listed.map (·.resource)) =
      (ctx.listed.map (·.madeFor)).map some := by
    rw [List.map_map]
    apply List.map_congr_left
    intro link member
    exact linked.resource link member
  have distinct := linked.distinct
  rw [known] at distinct
  unfold RdContext.references
  rw [List.filterMap_append, none_deleting, List.append_nil]
  change (ctx.listed.filterMap (·.resource)).Nodup
  rw [same]
  exact List.Nodup.of_map some distinct

end Linked

section Steps

variable {setup : RdSetup Resource}
  {ctx : RdContext Resource} {wanted : Resource → Bool}

theorem publishResponseLink_cases (setup : RdSetup Resource)
    (ctx : RdContext Resource) (entry : RdResponseLink) :
    publishResponseLink setup ctx entry = ctx ∨
      ∃ href ins link, entry = ⟨some href, some ins⟩ ∧
        rdLinkFindByHref setup ctx.rdPublishResources href = some link ∧
        publishResponseLink setup ctx entry =
          { ctx with
            rdPublishResources := ctx.rdPublishResources.eraseP
              (RdLink.hasHref setup href)
            rdPublishedResources := ctx.rdPublishedResources ++
              [{ link with ins := ins }] } := by
  obtain ⟨href, ins⟩ := entry
  cases href with
  | none => exact .inl rfl
  | some href =>
      cases ins with
      | none => exact .inl rfl
      | some ins =>
          cases found : rdLinkFindByHref setup ctx.rdPublishResources href with
          | none =>
              refine .inl ?_
              simp only [publishResponseLink, found]
          | some link =>
              refine .inr ⟨href, ins, link, rfl, found, ?_⟩
              simp only [publishResponseLink, found]

theorem listed_perm_of_found {href : Bytes} {link : RdLink Resource}
    (found : rdLinkFindByHref setup ctx.rdPublishResources href = some link) :
    ctx.listed.Perm (link ::
      (ctx.rdPublishResources.eraseP (RdLink.hasHref setup href) ++
        ctx.rdPublishedResources)) :=
  (perm_cons_eraseP_of_find? found).append_right _

theorem linked_publishResponseLink (entry : RdResponseLink)
    (linked : RdLinked wanted ctx.listed ctx.rdDeleteResources) :
    RdLinked wanted (publishResponseLink setup ctx entry).listed
      (publishResponseLink setup ctx entry).rdDeleteResources := by
  obtain same | ⟨href, ins, link, -, found, moved⟩ :=
    publishResponseLink_cases setup ctx entry
  · rw [same]
    exact linked
  · rw [moved]
    have taken := linked.of_perm (listed_perm_of_found found)
      (fun _ member => member)
    refine (taken.reissue ins).of_perm ?_ (fun _ member => member)
    unfold RdContext.listed
    rw [← List.append_assoc]
    exact (List.perm_append_singleton _ _).symm

theorem rdDeleteResources_publishResponseLink (entry : RdResponseLink) :
    (publishResponseLink setup ctx entry).rdDeleteResources =
      ctx.rdDeleteResources := by
  obtain same | ⟨href, ins, link, -, -, moved⟩ :=
    publishResponseLink_cases setup ctx entry
  · rw [same]
  · rw [moved]

theorem linked_publishResponseLinks (entries : List RdResponseLink)
    (linked : RdLinked wanted ctx.listed ctx.rdDeleteResources) :
    RdLinked wanted (runFrom (publishResponseLink setup) ctx entries).listed
      (runFrom (publishResponseLink setup) ctx entries).rdDeleteResources := by
  induction entries generalizing ctx with
  | nil => exact linked
  | cons entry entries ih => exact ih (linked_publishResponseLink entry linked)

theorem rdDeleteResources_publishResponseLinks
    (entries : List RdResponseLink) :
    (runFrom (publishResponseLink setup) ctx entries).rdDeleteResources =
      ctx.rdDeleteResources := by
  induction entries generalizing ctx with
  | nil => rfl
  | cons entry entries ih =>
      rw [runFrom_cons, ih, rdDeleteResources_publishResponseLink]

variable [DecidableEq Resource]

theorem ocCloudAddResource_cases (setup : RdSetup Resource)
    (answers : RdAnswers) (allocated : Option Int) (res : Resource)
    (cleared : ∀ link ∈ ctx.rdDeleteResources, link.resource = none) :
    (ocCloudAddResource setup answers allocated res ctx).1.1 = ctx ∨
      ∃ ins, allocated = some ins ∧
        (∀ link ∈ ctx.listed, link.resource ≠ some res) ∧
        (ocCloudAddResource setup answers allocated res ctx).1.1 =
          { ctx with rdPublishResources :=
            ctx.rdPublishResources ++ [⟨some res, ins, res⟩] } := by
  have kept : rdLinkRemoveByResource ctx.rdDeleteResources res =
      ctx.rdDeleteResources := by
    apply List.eraseP_of_forall_not
    intro link member
    rw [cleared link member]
    simp
  unfold ocCloudAddResource
  rw [kept]
  split_ifs with publish published
  · exact .inl rfl
  · exact .inl rfl
  · cases allocated with
    | none => exact .inl rfl
    | some ins =>
        refine .inr ⟨ins, rfl, ?_, rfl⟩
        rw [Bool.not_eq_true, Option.isSome_eq_false_iff,
          Option.isNone_iff_eq_none] at publish published
        intro link member
        rcases List.mem_append.mp member with here | here
        · exact find?_key_none_iff.mp publish link here
        · exact find?_key_none_iff.mp published link here

theorem not_listed_of_removed {res : Resource}
    (distinct : (ctx.listed.map (·.resource)).Nodup)
    {link : RdLink Resource}
    (member : link ∈ rdLinkRemoveByResource ctx.rdPublishResources res ++
      rdLinkRemoveByResource ctx.rdPublishedResources res) :
    link ∈ ctx.listed ∧ link.resource ≠ some res := by
  unfold RdContext.listed at distinct
  rw [List.map_append] at distinct
  rcases List.mem_append.mp member with here | here
  · obtain ⟨known, other⟩ :=
      (mem_eraseP_key_iff distinct.of_append_left).mp here
    exact ⟨List.mem_append_left _ known, other⟩
  · obtain ⟨known, other⟩ :=
      (mem_eraseP_key_iff distinct.of_append_right).mp here
    exact ⟨List.mem_append_right _ known, other⟩

theorem linked_rdPrepare (event : RdEvent Resource)
    (linked : RdLinked wanted ctx.listed ctx.rdDeleteResources) :
    RdLinked (wantedAfter wanted event) (rdPrepare setup ctx event).listed
      (rdPrepare setup ctx event).rdDeleteResources := by
  have moved : RdLinked wanted (movePublishedToPublishResources ctx).listed
      ctx.rdDeleteResources := by
    refine linked.of_perm ?_ (fun _ member => member)
    unfold RdContext.listed movePublishedToPublishResources
    rw [List.append_nil]
  cases event with
  | addResource res allocated answers =>
      have asked : ∀ link ∈ ctx.listed,
          wantedAfter wanted (.addResource res allocated answers)
            link.madeFor = true := by
        intro link member
        simp only [wantedAfter, linked.asked link member, Bool.or_true]
      obtain same | ⟨ins, -, fresh, added⟩ :=
        ocCloudAddResource_cases setup answers allocated res linked.cleared
      · unfold rdPrepare
        simp only
        rw [same]
        exact linked.of_asked asked
      · unfold rdPrepare
        simp only
        rw [added]
        have one := @RdLinked.cons _ _ _ _ ⟨some res, ins, res⟩
          (linked.of_asked asked) rfl fresh (by simp [wantedAfter])
        refine one.of_perm ?_ (fun _ member => member)
        unfold RdContext.listed
        rw [List.append_assoc]
        exact List.perm_middle.symm
  | deleteResource res answers =>
      refine ⟨?_, ?_, ?_, ?_⟩
      · intro link member
        exact linked.resource link
          (not_listed_of_removed linked.distinct member).1
      · exact linked.distinct.sublist
          ((List.eraseP_sublist.append List.eraseP_sublist).map _)
      · intro link member
        obtain ⟨known, other⟩ := not_listed_of_removed linked.distinct member
        rw [linked.resource link known] at other
        simp only [wantedAfter, linked.asked link known, Bool.and_true,
          bne_iff_ne]
        exact fun same => other (congrArg some same)
      · intro link member
        unfold rdPrepare at member
        simp only at member
        split_ifs at member
        · exact linked.cleared link (List.mem_of_mem_eraseP member)
        · rcases List.mem_append.mp member with known | new
          · exact linked.cleared link known
          · rw [Option.mem_toList, Option.map_eq_some_iff] at new
            obtain ⟨published, -, rfl⟩ := new
            rfl
  | publishResponse changed links =>
      unfold rdPrepare cloudPublishResourcesHandler
      simp only
      split_ifs
      · exact linked
      · exact linked_publishResponseLinks _ linked
  | unpublishResponse internal answers => exact linked
  | setStatus loggedIn refreshedToken => exact linked
  | statusChanged answers => exact linked
  | republish answers =>
      unfold rdPrepare
      simp only
      split_ifs
      · exact moved
      · exact linked
  | publishResources answers => exact moved
  | resetContext =>
      exact moved.of_perm (List.Perm.refl _) (fun _ member => by cases member)

/-- A resource is added only when no unpublishing of it is pending. -/
def RdEvent.SettledReadd (ctx : RdContext Resource) :
    RdEvent Resource → Prop
  | .addResource res _ _ => ¬ ctx.Unpublishing res
  | _ => True

omit [DecidableEq Resource] in
theorem rdDeleteResources_cloudPublishResourcesHandler (changed : Bool)
    (links : Option (List RdResponseLink)) :
    (cloudPublishResourcesHandler setup changed links ctx).rdDeleteResources =
      ctx.rdDeleteResources := by
  unfold cloudPublishResourcesHandler
  split_ifs
  · rfl
  · exact rdDeleteResources_publishResponseLinks _

theorem unwanted_rdPrepare {event : RdEvent Resource}
    (settled : event.SettledReadd ctx)
    (linked : RdLinked wanted ctx.listed ctx.rdDeleteResources)
    (unwanted : ∀ link ∈ ctx.rdDeleteResources, wanted link.madeFor = false) :
    ∀ link ∈ (rdPrepare setup ctx event).rdDeleteResources,
      wantedAfter wanted event link.madeFor = false := by
  intro link member
  cases event with
  | addResource res allocated answers =>
      have pending : link ∈ ctx.rdDeleteResources := by
        unfold rdPrepare at member
        simp only at member
        obtain same | ⟨ins, -, -, added⟩ :=
          ocCloudAddResource_cases setup answers allocated res linked.cleared
        · rw [same] at member
          exact member
        · rw [added] at member
          exact member
      have other : link.madeFor ≠ res :=
        fun same => settled ⟨link, pending, same⟩
      simp only [wantedAfter, unwanted link pending, Bool.or_false,
        beq_eq_false_iff_ne]
      exact other
  | deleteResource res answers =>
      have old : link ∈ ctx.rdDeleteResources →
          wantedAfter wanted (.deleteResource res answers)
            link.madeFor = false := by
        intro pending
        simp only [wantedAfter, unwanted link pending, Bool.and_false]
      unfold rdPrepare at member
      simp only at member
      split_ifs at member
      · exact old (List.mem_of_mem_eraseP member)
      · rcases List.mem_append.mp member with pending | new
        · exact old pending
        · rw [Option.mem_toList, Option.map_eq_some_iff] at new
          obtain ⟨published, found, rfl⟩ := new
          have here : published.resource = some res := by
            simpa using List.find?_some found
          have known := linked.resource published
            (List.mem_append_right _ (List.mem_of_find?_eq_some found))
          rw [here] at known
          obtain rfl := Option.some.inj known
          simp [wantedAfter]
  | publishResponse changed links =>
      apply unwanted
      unfold rdPrepare at member
      simp only at member
      rw [rdDeleteResources_cloudPublishResourcesHandler] at member
      exact member
  | unpublishResponse internal answers => exact unwanted link member
  | setStatus loggedIn refreshedToken => exact unwanted link member
  | statusChanged answers => exact unwanted link member
  | republish answers =>
      apply unwanted
      unfold rdPrepare at member
      simp only at member
      split_ifs at member
      · exact member
      · exact member
  | publishResources answers => exact unwanted link member
  | resetContext => cases member

/-- The instance ids tell the resources of the links apart. -/
def RdIdsApart (links : List (RdLink Resource)) : Prop :=
  ∀ first ∈ links, ∀ second ∈ links, first.ins = second.ins →
    first.madeFor = second.madeFor

def RdContext.held (ctx : RdContext Resource) : List (RdLink Resource) :=
  ctx.listed ++ ctx.rdDeleteResources

/-- No link for another resource has this instance id. -/
def RdContext.FreeFor (ctx : RdContext Resource) (ins : Int)
    (res : Resource) : Prop :=
  ∀ link ∈ ctx.held, link.ins = ins → link.madeFor = res

/-- The instance ids that new links and published links are given are not
those of other resources. -/
def RdEvent.IdsFree (setup : RdSetup Resource) (ctx : RdContext Resource) :
    RdEvent Resource → Prop
  | .addResource res allocated _ =>
      ∀ ins, allocated = some ins → ctx.FreeFor ins res
  | .publishResponse _ links =>
      Along (publishResponseLink setup)
        (fun ctx entry => ∀ href ins link, entry = ⟨some href, some ins⟩ →
          rdLinkFindByHref setup ctx.rdPublishResources href = some link →
          ctx.FreeFor ins link.madeFor)
        ctx (links.getD [])
  | _ => True

end Steps

section Ids

variable {links links' : List (RdLink Resource)}

theorem RdIdsApart.of_kept (apart : RdIdsApart links)
    (kept : ∀ link ∈ links', ∃ old ∈ links,
      old.ins = link.ins ∧ old.madeFor = link.madeFor) : RdIdsApart links' := by
  intro first firstMember second secondMember same
  obtain ⟨firstOld, firstKnown, firstIns, firstFor⟩ := kept first firstMember
  obtain ⟨secondOld, secondKnown, secondIns, secondFor⟩ :=
    kept second secondMember
  rw [← firstFor, ← secondFor]
  apply apart firstOld firstKnown secondOld secondKnown
  rw [firstIns, secondIns, same]

theorem RdIdsApart.of_subset (apart : RdIdsApart links)
    (fewer : ∀ link ∈ links', link ∈ links) : RdIdsApart links' :=
  apart.of_kept (fun link member => ⟨link, fewer link member, rfl, rfl⟩)

theorem RdIdsApart.cons {link : RdLink Resource} (apart : RdIdsApart links)
    (free : ∀ other ∈ links, other.ins = link.ins →
      other.madeFor = link.madeFor) : RdIdsApart (link :: links) := by
  intro first firstMember second secondMember same
  rcases List.mem_cons.mp firstMember with rfl | firstLater
  · rcases List.mem_cons.mp secondMember with rfl | secondLater
    · rfl
    · exact (free second secondLater same.symm).symm
  · rcases List.mem_cons.mp secondMember with rfl | secondLater
    · exact free first firstLater same
    · exact apart first firstLater second secondLater same

end Ids

section IdSteps

variable {setup : RdSetup Resource} {ctx : RdContext Resource}
  {wanted : Resource → Bool}

theorem idsApart_publishResponseLink {entry : RdResponseLink}
    (apart : RdIdsApart ctx.held)
    (free : ∀ href ins link, entry = ⟨some href, some ins⟩ →
      rdLinkFindByHref setup ctx.rdPublishResources href = some link →
      ctx.FreeFor ins link.madeFor) :
    RdIdsApart (publishResponseLink setup ctx entry).held := by
  obtain same | ⟨href, ins, link, given, found, moved⟩ :=
    publishResponseLink_cases setup ctx entry
  · rw [same]
    exact apart
  · rw [moved]
    have taken := listed_perm_of_found found
    -- the links that stay where they are
    have stays : ∀ other ∈
        ctx.rdPublishResources.eraseP (RdLink.hasHref setup href) ++
          ctx.rdPublishedResources ++ ctx.rdDeleteResources,
        other ∈ ctx.held := by
      intro other member
      rcases List.mem_append.mp member with here | here
      · exact List.mem_append_left _
          (taken.mem_iff.mpr (List.mem_cons_of_mem _ here))
      · exact List.mem_append_right _ here
    have one := @RdIdsApart.cons _ _ { link with ins := ins }
      (apart.of_subset stays)
      (fun other member => free href ins link given found other
        (stays other member))
    apply one.of_subset
    intro other member
    unfold RdContext.held RdContext.listed at member
    simp only [List.mem_append, List.mem_cons] at member ⊢
    tauto

theorem idsApart_rdPrepare [DecidableEq Resource] {event : RdEvent Resource}
    (free : event.IdsFree setup ctx)
    (linked : RdLinked wanted ctx.listed ctx.rdDeleteResources)
    (apart : RdIdsApart ctx.held) :
    RdIdsApart (rdPrepare setup ctx event).held := by
  have moved : RdIdsApart (movePublishedToPublishResources ctx).held := by
    apply apart.of_subset
    intro link member
    unfold RdContext.held RdContext.listed movePublishedToPublishResources
      at member
    rw [List.append_nil] at member
    exact member
  cases event with
  | addResource res allocated answers =>
      unfold rdPrepare
      simp only
      obtain same | ⟨ins, given, -, added⟩ :=
        ocCloudAddResource_cases setup answers allocated res linked.cleared
      · rw [same]
        exact apart
      · rw [added]
        have one := @RdIdsApart.cons _ _ ⟨some res, ins, res⟩ apart
          (free ins given)
        apply one.of_subset
        intro link member
        unfold RdContext.held RdContext.listed at member
        unfold RdContext.held RdContext.listed
        simp only [List.mem_append, List.mem_cons] at member ⊢
        tauto
  | deleteResource res answers =>
      apply apart.of_kept
      intro link member
      rcases List.mem_append.mp member with here | here
      · exact ⟨link, List.mem_append_left _
          (not_listed_of_removed linked.distinct here).1, rfl, rfl⟩
      · unfold rdPrepare at here
        simp only at here
        split_ifs at here
        · exact ⟨link, List.mem_append_right _ (List.mem_of_mem_eraseP here),
            rfl, rfl⟩
        · rcases List.mem_append.mp here with pending | new
          · exact ⟨link, List.mem_append_right _ pending, rfl, rfl⟩
          · rw [Option.mem_toList, Option.map_eq_some_iff] at new
            obtain ⟨published, found, rfl⟩ := new
            refine ⟨published, ?_, rfl, rfl⟩
            exact List.mem_append_left _ (List.mem_append_right _
              (List.mem_of_find?_eq_some found))
  | publishResponse changed links =>
      unfold rdPrepare cloudPublishResourcesHandler
      simp only
      split_ifs
      · exact apart
      · exact @Along.invariant _ _ _ _ _ (fun ctx => RdIdsApart ctx.held) _
          free apart (fun _ _ before given =>
            idsApart_publishResponseLink before given)
  | unpublishResponse internal answers => exact apart
  | setStatus loggedIn refreshedToken => exact apart
  | statusChanged answers => exact apart
  | republish answers =>
      unfold rdPrepare
      simp only
      split_ifs
      · exact moved
      · exact apart
  | publishResources answers => exact moved
  | resetContext =>
      apply moved.of_subset
      intro link member
      rcases List.mem_append.mp member with here | here
      · exact List.mem_append_left _ here
      · cases here

end IdSteps

section Runs

variable [DecidableEq Resource] {setup : RdSetup Resource}

namespace RdSystem

def run (setup : RdSetup Resource) (events : List (RdEvent Resource)) :
    RdSystem Resource :=
  runFrom (RdSystem.next setup) .initial events

/-- In every step of the run, a resource is added only when no unpublishing
of it is pending. -/
def SettledReadds (setup : RdSetup Resource)
    (events : List (RdEvent Resource)) : Prop :=
  Along (RdSystem.next setup)
    (fun system event => event.SettledReadd system.directory) .initial events

/-- In every step of the run, no instance id of another resource is given. -/
def FreeIds (setup : RdSetup Resource) (events : List (RdEvent Resource)) :
    Prop :=
  Along (RdSystem.next setup)
    (fun system event => event.IdsFree setup system.directory) .initial events

def Linked (system : RdSystem Resource) : Prop :=
  RdLinked system.wanted system.directory.listed
    system.directory.rdDeleteResources

def Unwanted (system : RdSystem Resource) : Prop :=
  ∀ link ∈ system.directory.rdDeleteResources,
    system.wanted link.madeFor = false

theorem linked_next {system : RdSystem Resource} (event : RdEvent Resource)
    (linked : system.Linked) : (system.next setup event).Linked := by
  have sends := rdSends_rdStep setup system.directory event
  have prepared := @linked_rdPrepare _ setup _ _ _ event linked
  refine prepared.of_perm ?_ sends.delete
  have same : (system.next setup event).directory.listed =
      (rdPrepare setup system.directory event).listed := by
    unfold RdContext.listed
    rw [← sends.publish, ← sends.published]
    rfl
  rw [same]

omit [DecidableEq Resource] in
theorem linked_initial : (initial : RdSystem Resource).Linked := by
  refine ⟨?_, List.nodup_nil, ?_, ?_⟩
  all_goals
    intro link member
    cases member

theorem linked_run (events : List (RdEvent Resource)) :
    (run setup events).Linked :=
  invariant_runFrom events linked_initial
    (fun _ event linked => linked_next event linked)

theorem unwanted_run {events : List (RdEvent Resource)}
    (settled : SettledReadds setup events) : (run setup events).Unwanted := by
  refine (@Along.invariant _ _ _ _ _
    (fun system => system.Linked ∧ system.Unwanted) _ settled
    ⟨linked_initial, fun link member => by cases member⟩ ?_).2
  intro system event known here
  refine ⟨linked_next event known.1, ?_⟩
  intro link member
  exact unwanted_rdPrepare here known.1 known.2 link
    ((rdSends_rdStep setup system.directory event).delete link member)

theorem idsApart_run {events : List (RdEvent Resource)}
    (free : FreeIds setup events) :
    RdIdsApart (run setup events).directory.held := by
  refine (@Along.invariant _ _ _ _ _
    (fun system => system.Linked ∧ RdIdsApart system.directory.held) _ free
    ⟨linked_initial, fun link member => by cases member⟩ ?_).2
  intro system event known here
  refine ⟨linked_next event known.1, ?_⟩
  have sends := rdSends_rdStep setup system.directory event
  apply (idsApart_rdPrepare here known.1 known.2).of_subset
  intro link member
  rcases List.mem_append.mp member with listed | pending
  · refine List.mem_append_left _ ?_
    unfold RdContext.listed at listed ⊢
    rw [← sends.publish, ← sends.published]
    exact listed
  · exact List.mem_append_right _ (sends.delete link pending)

theorem unpublishing_addResource {system : RdSystem Resource}
    (linked : system.Linked) {res : Resource}
    (pending : system.directory.Unpublishing res) (allocated : Option Int)
    (answers : RdAnswers) :
    (system.next setup
      (.addResource res allocated answers)).directory.Unpublishing res := by
  unfold RdSystem.next rdStep
  simp only
  obtain same | ⟨ins, -, -, added⟩ :=
    ocCloudAddResource_cases setup answers allocated res linked.cleared
  · rw [same]
    exact pending
  · rw [added]
    exact pending

theorem settledReadds_iff (events : List (RdEvent Resource)) :
    SettledReadds setup events ↔
      ∀ first rest, first ++ rest = events →
        ∀ res, (run setup first).wanted res = true →
          ¬ (run setup first).directory.Unpublishing res := by
  constructor
  · rintro settled first rest rfl res wanted ⟨link, pending, rfl⟩
    have before := (along_append.mp settled).1
    rw [unwanted_run before link pending] at wanted
    cases wanted
  · intro never
    refine along_iff_forall_append.mpr ?_
    intro first event rest split
    cases event with
    | addResource res allocated answers =>
        intro pending
        have after : run setup (first ++ [.addResource res allocated answers]) =
            (run setup first).next setup
              (.addResource res allocated answers) := runFrom_append _ _
        apply never (first ++ [.addResource res allocated answers]) rest
          (by rw [← split, List.append_assoc]; rfl) res
        · rw [after]
          simp [RdSystem.next, wantedAfter]
        · rw [after]
          exact unpublishing_addResource (linked_run first) pending allocated
            answers
    | _ => trivial

end RdSystem

/-- Each resource is referenced from at most one list.  Nothing that is wanted
ever waits to be unpublished exactly when resources are added only while no
unpublishing of them is pending.  Then no unpublish request names a resource
that is wanted, nor its instance id, when an instance id is not that of
several resources. -/
theorem rd_lists_of_settled_readds (setup : RdSetup Resource)
    (events : List (RdEvent Resource)) (event : RdEvent Resource) :
    (RdSystem.run setup (events ++ [event])).directory.references.Nodup ∧
      (RdSystem.SettledReadds setup (events ++ [event]) ↔
        ∀ first rest, first ++ rest = events ++ [event] →
          ∀ res, (RdSystem.run setup first).wanted res = true →
            ¬ (RdSystem.run setup first).directory.Unpublishing res) ∧
      (RdSystem.SettledReadds setup (events ++ [event]) →
        ∀ links, RdRequest.unpublish links ∈
            (rdStep setup (RdSystem.run setup events).directory event).2 →
          ∀ link ∈ links,
            (RdSystem.run setup
              (events ++ [event])).wanted link.madeFor = false ∧
            (RdSystem.FreeIds setup (events ++ [event]) →
              ∀ other ∈ (RdSystem.run setup
                (events ++ [event])).directory.listed,
                other.ins ≠ link.ins)) := by
  have final : RdSystem.run setup (events ++ [event]) =
      (RdSystem.run setup events).next setup event := runFrom_append _ _
  have linked := @RdSystem.linked_run _ _ setup (events ++ [event])
  refine ⟨linked.references_nodup, RdSystem.settledReadds_iff _, ?_⟩
  intro settled links sent link member
  obtain ⟨settledBefore, settledHere, -⟩ := along_append.mp settled
  have sends := rdSends_rdStep setup (RdSystem.run setup events).directory
    event
  have pending := sends.named links sent link member
  have unwanted : (RdSystem.run setup (events ++ [event])).wanted
      link.madeFor = false := by
    rw [final]
    exact unwanted_rdPrepare settledHere (RdSystem.linked_run events)
      (RdSystem.unwanted_run settledBefore) link pending
  refine ⟨unwanted, ?_⟩
  intro free other listed same
  obtain ⟨freeBefore, freeHere, -⟩ := along_append.mp free
  have apart := idsApart_rdPrepare freeHere (RdSystem.linked_run events)
    (RdSystem.idsApart_run freeBefore)
  have held : other ∈ (rdPrepare setup
      (RdSystem.run setup events).directory event).listed := by
    rw [final] at listed
    unfold RdContext.listed at listed ⊢
    rw [← sends.publish, ← sends.published]
    exact listed
  have sameFor := apart other (List.mem_append_left _ held) link
    (List.mem_append_right _ pending) same
  have asked := linked.asked other listed
  rw [sameFor, unwanted] at asked
  cases asked

end Runs

namespace DirectoryFixture

def setup : RdSetup Nat where
  ocSecurity := true
  uri := fun res => [97 + res.toUInt8]
  fits := fun _ => true
  unlimited := false

def sent : RdAnswers := ⟨true, false, true, true⟩

/-- The unpublish request could not be sent. -/
def unsent : RdAnswers := ⟨true, false, true, false⟩

/-- A published resource is deleted while no request can be sent, and it is
added and published again. -/
def readded : List (RdEvent Nat) :=
  [.setStatus true false, .addResource 0 (some 100) sent,
    .addResource 1 (some 101) sent,
    .publishResponse true (some [⟨some [97], some 7⟩, ⟨some [98], some 8⟩]),
    .deleteResource 0 unsent, .addResource 0 (some 102) sent,
    .publishResponse true (some [⟨some [97], some 7⟩])]

end DirectoryFixture

/-- An unpublish request names the instance id under which a resource that
was added again is published. -/
theorem unpublish_names_readded :
    (RdSystem.run DirectoryFixture.setup
        (DirectoryFixture.readded ++
          [.deleteResource 1 DirectoryFixture.sent])).wanted 0 = true ∧
      (RdSystem.run DirectoryFixture.setup
        (DirectoryFixture.readded ++
          [.deleteResource 1
            DirectoryFixture.sent])).directory.rdPublishedResources =
        [⟨some 0, 7, 0⟩] ∧
      (rdStep DirectoryFixture.setup
        (RdSystem.run DirectoryFixture.setup
          DirectoryFixture.readded).directory
        (.deleteResource 1 DirectoryFixture.sent)).2 =
        [.unpublish [⟨none, 7, 0⟩, ⟨none, 8, 1⟩]] := by
  decide

end IotivityLite
