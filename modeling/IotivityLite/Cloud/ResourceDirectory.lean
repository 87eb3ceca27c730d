import IotivityLite.Foundation.Memory
import IotivityLite.Foundation.Run

/-!
# Links in the resource directory of the cloud

The three lists of links of `oc_cloud_rd.c`: links to publish, published
links, and links that wait to be unpublished.  A resource is known by its
pointer, here by a value of an arbitrary type, and its URI is a function of
it.  What comes from outside is part of the event: the security state of the
device, whether a request could be sent, the result of an allocation and the
responses of the cloud.
-/

namespace IotivityLite

/-- A link of the directory. -/
structure RdLink (Resource : Type) where
  /-- cleared when the link is to be unpublished -/
  resource : Option Resource
  ins : Int
  /-- the resource that the link was made for; the source does not keep it -/
  madeFor : Resource
  deriving DecidableEq

structure RdContext (Resource : Type) where
  rdPublishResources : List (RdLink Resource)
  rdPublishedResources : List (RdLink Resource)
  rdDeleteResources : List (RdLink Resource)
  /-- `OC_CLOUD_LOGGED_IN` and `OC_CLOUD_REFRESHED_TOKEN` of `store.status` -/
  loggedIn : Bool
  refreshedToken : Bool
  /-- `publish_published_resources` is scheduled -/
  republish : Bool
  deriving DecidableEq

structure RdSetup (Resource : Type) where
  ocSecurity : Bool
  uri : Resource → Bytes
  /-- the query with these instance ids fits into the buffer and the packet -/
  fits : List Int → Bool
  /-- `time_to_live` is `RD_PUBLISH_TTL_UNLIMITED` -/
  unlimited : Bool

/-- A request to the directory.  To publish no links stands for publishing
`/oic/p` and `/oic/d`. -/
inductive RdRequest (Resource : Type) where
  | publish (links : List (RdLink Resource))
  | unpublish (links : List (RdLink Resource))
  deriving DecidableEq

/-- What the world decides while a function runs. -/
structure RdAnswers where
  /-- the device is in RFNOP -/
  rfnop : Bool
  /-- the device is in RESET or RFOTM -/
  unowned : Bool
  publishSent : Bool
  unpublishSent : Bool
  deriving DecidableEq

/-- An entry of `links` in the response to a publish request. -/
structure RdResponseLink where
  href : Option Bytes
  ins : Option Int
  deriving DecidableEq

section Lists

variable {Resource : Type} [DecidableEq Resource]

def rdLinkFind (head : List (RdLink Resource)) (res : Resource) :
    Option (RdLink Resource) :=
  head.find? (fun link => link.resource == some res)

/-- The list after `rd_link_remove_by_resource`. -/
def rdLinkRemoveByResource (head : List (RdLink Resource)) (res : Resource) :
    List (RdLink Resource) :=
  head.eraseP (fun link => link.resource == some res)

def RdLink.hasHref (setup : RdSetup Resource) (href : Bytes)
    (link : RdLink Resource) : Bool :=
  link.resource.map setup.uri == some href

def rdLinkFindByHref (setup : RdSetup Resource)
    (head : List (RdLink Resource)) (href : Bytes) :
    Option (RdLink Resource) :=
  head.find? (RdLink.hasHref setup href)

/-- One round of the loop of `cloud_publish_resources_handler`. -/
def publishResponseLink (setup : RdSetup Resource)
    (ctx : RdContext Resource) (entry : RdResponseLink) :
    RdContext Resource :=
  match entry.href, entry.ins with
  | some href, some ins =>
      match rdLinkFindByHref setup ctx.rdPublishResources href with
      | none => ctx
      | some link =>
          { ctx with
            rdPublishResources := ctx.rdPublishResources.eraseP
              (RdLink.hasHref setup href)
            rdPublishedResources := ctx.rdPublishedResources ++
              [{ link with ins := ins }] }
  | _, _ => ctx

/-- `changed` says that the code is `OC_STATUS_CHANGED`; `links` is missing
when the payload has no array of objects under that name. -/
def cloudPublishResourcesHandler (setup : RdSetup Resource) (changed : Bool)
    (links : Option (List RdResponseLink)) (ctx : RdContext Resource) :
    RdContext Resource :=
  if !ctx.loggedIn || !changed then ctx
  else runFrom (publishResponseLink setup) ctx (links.getD [])

def cloudPublishResources (setup : RdSetup Resource) (answers : RdAnswers)
    (ctx : RdContext Resource) : List (RdRequest Resource) :=
  if setup.ocSecurity && !answers.rfnop then []
  else if !ctx.loggedIn then []
  else if answers.publishSent then [.publish ctx.rdPublishResources]
  else []

/-- `allocated` is the random instance id of the new link, if there is
memory for one.  The last component is the result of the function. -/
def ocCloudAddResource (setup : RdSetup Resource) (answers : RdAnswers)
    (allocated : Option Int) (res : Resource) (ctx : RdContext Resource) :
    (RdContext Resource × List (RdRequest Resource)) × Int :=
  if (rdLinkFind ctx.rdPublishResources res).isSome then ((ctx, []), 0)
  else if (rdLinkFind ctx.rdPublishedResources res).isSome then ((ctx, []), 0)
  else
    let ctx := { ctx with rdDeleteResources :=
      rdLinkRemoveByResource ctx.rdDeleteResources res }
    match allocated with
    | none => ((ctx, []), -1)
    | some ins =>
        let ctx := { ctx with rdPublishResources :=
          ctx.rdPublishResources ++ [⟨some res, ins, res⟩] }
        ((ctx, cloudPublishResources setup answers ctx), 0)

def movePublishedToPublishResources (ctx : RdContext Resource) :
    RdContext Resource :=
  { ctx with
    rdPublishResources := ctx.rdPublishResources ++ ctx.rdPublishedResources
    rdPublishedResources := [] }

def publishPublishedResources (setup : RdSetup Resource)
    (answers : RdAnswers) (ctx : RdContext Resource) :
    RdContext Resource × List (RdRequest Resource) :=
  let ctx := movePublishedToPublishResources ctx
  (ctx, cloudPublishResources setup answers ctx)

/-- The loop of `rd_delete_fill_and_send_single_packet`: the links whose
instance ids are in the query, and the others. -/
def rdDeleteFill (setup : RdSetup Resource)
    (written : List (RdLink Resource)) :
    List (RdLink Resource) → List (RdLink Resource) × List (RdLink Resource)
  | [] => (written, [])
  | link :: rest =>
      if setup.fits ((written ++ [link]).map (·.ins)) then
        rdDeleteFill setup (written ++ [link]) rest
      else (written, link :: rest)

/-- `cloud_delete_resources`: the links that were sent are forgotten. -/
def cloudDeleteResources (setup : RdSetup Resource) (answers : RdAnswers)
    (ctx : RdContext Resource) :
    RdContext Resource × List (RdRequest Resource) :=
  if setup.ocSecurity && !answers.rfnop then (ctx, [])
  else if !ctx.loggedIn then (ctx, [])
  else if !answers.unpublishSent then (ctx, [])
  else
    let (deleted, notDeleted) := rdDeleteFill setup [] ctx.rdDeleteResources
    -- without a link in it the packet is sent, but nothing is forgotten
    if deleted.isEmpty then (ctx, [.unpublish deleted])
    else ({ ctx with rdDeleteResources := notDeleted }, [.unpublish deleted])

/-- `cloud_delete_resources` where it is called only for a list with links. -/
def cloudDeleteResourcesIfAny (setup : RdSetup Resource)
    (answers : RdAnswers) (ctx : RdContext Resource) :
    RdContext Resource × List (RdRequest Resource) :=
  if ctx.rdDeleteResources.isEmpty then (ctx, [])
  else cloudDeleteResources setup answers ctx

/-- `internal` says that the code is not one of a response. -/
def deleteResourcesHandler (setup : RdSetup Resource) (answers : RdAnswers)
    (internal : Bool) (ctx : RdContext Resource) :
    RdContext Resource × List (RdRequest Resource) :=
  if ctx.rdDeleteResources.isEmpty || internal then (ctx, [])
  else cloudDeleteResources setup answers ctx

def ocCloudDeleteResource (setup : RdSetup Resource) (answers : RdAnswers)
    (res : Resource) (ctx : RdContext Resource) :
    RdContext Resource × List (RdRequest Resource) :=
  let published := rdLinkFind ctx.rdPublishedResources res
  let ctx := { ctx with
    rdPublishResources := rdLinkRemoveByResource ctx.rdPublishResources res
    rdPublishedResources :=
      rdLinkRemoveByResource ctx.rdPublishedResources res }
  if setup.ocSecurity && answers.unowned then
    ({ ctx with rdDeleteResources :=
      rdLinkRemoveByResource ctx.rdDeleteResources res }, [])
  else
    match published with
    | none => (ctx, [])
    | some link =>
        cloudDeleteResources setup answers { ctx with rdDeleteResources :=
          ctx.rdDeleteResources ++ [{ link with resource := none }] }

def cloudRdManagerStatusChanged (setup : RdSetup Resource)
    (answers : RdAnswers) (ctx : RdContext Resource) :
    RdContext Resource × List (RdRequest Resource) :=
  if !ctx.loggedIn then ({ ctx with republish := false }, [])
  else if ctx.refreshedToken then (ctx, [])
  else
    let publish :=
      if ctx.rdPublishResources.isEmpty then []
      else cloudPublishResources setup answers ctx
    let (ctx, unpublish) := cloudDeleteResourcesIfAny setup answers ctx
    ({ ctx with republish := !setup.unlimited }, publish ++ unpublish)

def cloudRdResetContext (ctx : RdContext Resource) : RdContext Resource :=
  movePublishedToPublishResources
    { ctx with republish := false, rdDeleteResources := [] }

def ocCloudPublishResources (setup : RdSetup Resource) (answers : RdAnswers)
    (ctx : RdContext Resource) :
    RdContext Resource × List (RdRequest Resource) :=
  let (ctx, publish) := publishPublishedResources setup answers ctx
  let (ctx, unpublish) := cloudDeleteResourcesIfAny setup answers ctx
  (ctx, publish ++ unpublish)

inductive RdEvent (Resource : Type) where
  | addResource (res : Resource) (allocated : Option Int)
      (answers : RdAnswers)
  | deleteResource (res : Resource) (answers : RdAnswers)
  | publishResponse (changed : Bool) (links : Option (List RdResponseLink))
  | unpublishResponse (internal : Bool) (answers : RdAnswers)
  /-- the manager logs in or out, or refreshes the token -/
  | setStatus (loggedIn refreshedToken : Bool)
  /-- the manager reports its status -/
  | statusChanged (answers : RdAnswers)
  /-- the hourly callback -/
  | republish (answers : RdAnswers)
  | publishResources (answers : RdAnswers)
  | resetContext

def rdStep (setup : RdSetup Resource) (ctx : RdContext Resource) :
    RdEvent Resource → RdContext Resource × List (RdRequest Resource)
  | .addResource res allocated answers =>
      (ocCloudAddResource setup answers allocated res ctx).1
  | .deleteResource res answers => ocCloudDeleteResource setup answers res ctx
  | .publishResponse changed links =>
      (cloudPublishResourcesHandler setup changed links ctx, [])
  | .unpublishResponse internal answers =>
      deleteResourcesHandler setup answers internal ctx
  | .setStatus loggedIn refreshedToken =>
      ({ ctx with loggedIn := loggedIn, refreshedToken := refreshedToken },
        [])
  | .statusChanged answers => cloudRdManagerStatusChanged setup answers ctx
  | .republish answers =>
      if ctx.republish then publishPublishedResources setup answers ctx
      else (ctx, [])
  | .publishResources answers => ocCloudPublishResources setup answers ctx
  | .resetContext => (cloudRdResetContext ctx, [])

def RdContext.initial : RdContext Resource where
  rdPublishResources := []
  rdPublishedResources := []
  rdDeleteResources := []
  loggedIn := false
  refreshedToken := false
  republish := false

end Lists

end IotivityLite
