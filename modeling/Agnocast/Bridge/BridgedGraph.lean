import Agnocast.Process.LiveEndpoints

/-!
# The bridge managers — on one DDS graph

The bridge managers of several ipc namespaces share a DDS graph. An R2A bridge is a bridge
publisher of the kernel module that publishes what the manager's participant receives; an A2R
bridge is a bridge subscriber, and the participant sends what it receives. Two filters keep a
message from coming back: the kernel module compares pids, DDS compares participants.

* `Message`, `Sample`  — what travels, and what DDS holds of it.
* `ManagerProcess`     — the active bridges of a running manager.
* `bridgedGraph`       — the kernel module, the managers and DDS as one system.
* `NoEcho`             — an event in which nothing comes back.

DDS delivers what it holds to whom it likes, as often as it likes and in any order, or drops it;
it only keeps the samples of a participant from the subscriptions of the same participant. A
manager does not learn that it has lost its role, and runs until its process exits.
-/

namespace Agnocast

open Function

/-! ## Messages -/

/-- What travels: the namespace whose publisher has published it, which a message of a ROS 2 node
has none of, and the namespaces that R2A bridges have injected it into, the latest first. -/
structure Message where
  origin : Option IpcNs
  injected : List IpcNs
  deriving DecidableEq, Repr

namespace Message

/-- An application publishes it. -/
def fresh (ipcNs : IpcNs) : Message := ⟨some ipcNs, []⟩

/-- An R2A bridge publishes what it has received. -/
def inject (m : Message) (ipcNs : IpcNs) : Message := { m with injected := ipcNs :: m.injected }

end Message

/-- A message on the DDS graph. Only the participants of managers have a number. -/
structure Sample where
  topicName : Name
  participant : Option Nat
  message : Message
  deriving DecidableEq, Repr

/-! ## Managers -/

/-- A running manager: `active_pubsub_r2a_bridges_` with the ids of the publishers,
`active_pubsub_a2r_bridges_` with the ids of the subscribers, and what the subscribers have
received and the callbacks have not published yet. -/
structure ManagerProcess where
  ipcNs : IpcNs
  nodeName : Name
  participant : Nat
  r2a : Name → Option Int
  a2r : Name → Option Int
  pending : List (Name × Message)

namespace ManagerProcess

variable (M : ManagerProcess)

def setR2a (topicName : Name) (id : Option Int) : ManagerProcess :=
  { M with r2a := update M.r2a topicName id }

def setA2r (topicName : Name) (id : Option Int) : ManagerProcess :=
  { M with a2r := update M.a2r topicName id }

theorem setR2a_r2a (topicName n : Name) (id : Option Int) :
    (M.setR2a topicName id).r2a n = if n = topicName then id else M.r2a n :=
  update_apply M.r2a topicName id n

theorem setA2r_a2r (topicName n : Name) (id : Option Int) :
    (M.setA2r topicName id).a2r n = if n = topicName then id else M.a2r n :=
  update_apply M.a2r topicName id n

/-- The callback group of the bridge is stopped: none of its callbacks runs any more. -/
def dropPending (topicName : Name) : ManagerProcess :=
  { M with pending := M.pending.filter fun e => e.1 ≠ topicName }

/-- `create_r2a_pubsub_bridge_generic`: its publisher. -/
def r2aPublisher (pid : Pid) : PublisherArgs where
  nodeName := M.nodeName
  pid := pid
  -- `DEFAULT_QOS_DEPTH`
  qosDepth := 10
  qosIsTransientLocal := true
  isBridge := true

/-- `create_a2r_pubsub_bridge_generic`: its subscription, with the QoS of a publisher. -/
def a2rSubscription (pid : Pid) (qosDepth : Nat) (transientLocal reliable : Bool) :
    SubscriberArgs where
  nodeName := M.nodeName
  pid := pid
  qosDepth := qosDepth
  qosIsTransientLocal := transientLocal
  qosIsReliable := reliable
  isTakeSub := false
  -- the kernel module compares the pid of the publisher with the subscriber's
  ignoreLocalPublications := true
  isBridge := true

end ManagerProcess

/-! ## The graph -/

/-- The kernel module, the managers that run, and what DDS holds. `contents` says what an entry of
a topic carries. -/
structure Graph where
  kmod : Kmod
  manager : Pid → Option ManagerProcess
  nextParticipant : Nat
  samples : List Sample
  contents : Nat × Int → Message

/-- What can happen: a call of an application, or of a manager that it makes about its role; a
manager starts, creates or removes a bridge, or exits; DDS delivers a sample to an R2A bridge;
an A2R bridge receives, or publishes what it has received; a ROS 2 node publishes; DDS drops a
sample. -/
inductive GraphInput
  | ioctl (i : Input)
  | launch (env : Env) (pid : Pid) (ipcNs : IpcNs) (nodeName : Name)
  | createR2a (env : Env) (pid : Pid) (topicName : Name)
  | createA2r (env : Env) (pid : Pid) (topicName : Name) (qosDepth : Nat)
      (transientLocal reliable : Bool) (eventfd : Int)
  | removeR2a (env : Env) (pid : Pid) (topicName : Name)
  | removeA2r (env : Env) (pid : Pid) (topicName : Name)
  | deliver (env : Env) (pid : Pid) (s : Sample) (addr : Nat)
  | receive (env : Env) (pid : Pid) (topicName : Name) (pubShmInfosSize : Nat)
  | send (pid : Pid) (topicName : Name) (m : Message)
  | ros2Publish (topicName : Name)
  | forget (s : Sample)
  | exit (env : Env) (pid : Pid)

/-- What an event shows: a call of the kernel module, or a message that an A2R bridge of a
namespace sends. -/
inductive Outcome
  | called (i : Input)
  | sent (ipcNs : IpcNs) (m : Message)
  | quiet

/-- What the entries carry after a call. The next entry of the topic is the one that is
published. -/
def recordMessage (σ : Kmod) (call : Call) (m : IpcNs → Message) (contents : Nat × Int → Message) :
    Nat × Int → Message :=
  match call with
  | .publishMsg current topicName ipcNs _ _ =>
    match findTopicForCurrent σ current topicName ipcNs with
    | some w => update contents (w.topic, (σ.topicStructs w.topic).currentEntryId) (m w.ipcNs)
    | none => contents
  | _ => contents

namespace Graph

variable (g : Graph)

/-- Right after the module was loaded. -/
def initial (σ : Kmod) : Graph where
  kmod := σ
  manager := fun _ => none
  nextParticipant := 0
  samples := []
  contents := fun _ => ⟨none, []⟩

def setManager (pid : Pid) (M : Option ManagerProcess) : Graph :=
  { g with manager := update g.manager pid M }

/-- A call of the kernel module, which publishes `m` if it publishes anything. -/
def call (i : Input) (m : IpcNs → Message) : Graph :=
  { g with
    kmod := (Agnocast.step g.kmod i).2
    contents := recordMessage g.kmod i.call m g.contents }

/-- What a manager does, if the process is one that runs. -/
def ofManager (pid : Pid) (act : ManagerProcess → Outcome × Graph) : Outcome × Graph :=
  match g.manager pid with
  | some M => act M
  | none => (.quiet, g)

/-- The process registers, and is the manager if the module has found no other. -/
def launch (domainId : Nat) (env : Env) (pid : Pid) (ipcNs : IpcNs) (nodeName : Name) :
    Outcome × Graph :=
  let i : Input := ⟨env, .addProcess pid ipcNs 1 domainId⟩
  (.called i,
    match (Agnocast.step g.kmod i).1 with
    -- there is no pool in the answer when the namespace has a manager already
    | .processAdded (.ok ⟨some _, _, _, _⟩) =>
      { (g.call i .fresh).setManager pid
          (some ⟨ipcNs, nodeName, g.nextParticipant, fun _ => none, fun _ => none, []⟩) with
        nextParticipant := g.nextParticipant + 1 }
    | _ => g.call i .fresh)

/-- `create_r2a_pubsub_bridge_generic`, of a topic without one. -/
def createR2a (env : Env) (pid : Pid) (topicName : Name) (M : ManagerProcess) : Outcome × Graph :=
  if M.r2a topicName = none then
    let i : Input := ⟨env, .addPublisher topicName M.ipcNs (M.r2aPublisher pid)⟩
    (.called i,
      match (Agnocast.step g.kmod i).1 with
      | .endpointAdded (.ok id) =>
        (g.call i .fresh).setManager pid (some (M.setR2a topicName (some id)))
      -- a failed ioctl ends the process, and its exit is an event of its own
      | _ => g.call i .fresh)
  else (.quiet, g)

/-- `create_a2r_pubsub_bridge_generic`, of a topic without one. -/
def createA2r (env : Env) (pid : Pid) (topicName : Name) (qosDepth : Nat)
    (transientLocal reliable : Bool) (eventfd : Int) (M : ManagerProcess) : Outcome × Graph :=
  if M.a2r topicName = none then
    let i : Input := ⟨env, .addSubscriber topicName M.ipcNs
      (M.a2rSubscription pid qosDepth transientLocal reliable) eventfd⟩
    (.called i,
      match (Agnocast.step g.kmod i).1 with
      | .endpointAdded (.ok id) =>
        (g.call i .fresh).setManager pid (some (M.setA2r topicName (some id)))
      | _ => g.call i .fresh)
  else (.quiet, g)

/-- The bridge is erased, and its publisher with it. -/
def removeR2a (env : Env) (pid : Pid) (topicName : Name) (M : ManagerProcess) : Outcome × Graph :=
  match M.r2a topicName with
  | some id =>
    let i : Input := ⟨env, .removePublisher pid topicName M.ipcNs id⟩
    (.called i, (g.setManager pid (some (M.setR2a topicName none))).call i .fresh)
  | none => (.quiet, g)

/-- The group of the bridge is stopped and the bridge erased, and its subscriber with it. -/
def removeA2r (env : Env) (pid : Pid) (topicName : Name) (M : ManagerProcess) : Outcome × Graph :=
  match M.a2r topicName with
  | some id =>
    let i : Input := ⟨env, .removeSubscriber pid topicName M.ipcNs id⟩
    (.called i,
      (g.setManager pid (some ((M.setA2r topicName none).dropPending topicName))).call i .fresh)
  | none => (.quiet, g)

/-- The callback of an R2A bridge publishes a sample. Its subscription ignores the publications of
its own participant. -/
def deliver (env : Env) (pid : Pid) (s : Sample) (addr : Nat) (M : ManagerProcess) :
    Outcome × Graph :=
  match M.r2a s.topicName with
  | some id =>
    -- `opts.ignore_local_publications` of the ROS 2 subscription
    if s ∈ g.samples ∧ s.participant ≠ some M.participant then
      let i : Input := ⟨env, .publishMsg pid s.topicName M.ipcNs id addr⟩
      (.called i, g.call i s.message.inject)
    else (.quiet, g)
  | none => (.quiet, g)

/-- The subscriber of an A2R bridge receives. -/
def receive (env : Env) (pid : Pid) (topicName : Name) (pubShmInfosSize : Nat)
    (M : ManagerProcess) : Outcome × Graph :=
  match M.a2r topicName with
  | some id =>
    let i : Input := ⟨env, .receiveMsg pid topicName M.ipcNs id pubShmInfosSize⟩
    let received := (handouts (eventOf g.kmod i)).map fun ho =>
      (topicName, g.contents (ho.topic, ho.entryId))
    (.called i,
      (g.setManager pid (some { M with pending := M.pending ++ received })).call i .fresh)
  | none => (.quiet, g)

/-- The callback of an A2R bridge publishes what was received. -/
def send (pid : Pid) (topicName : Name) (m : Message) (M : ManagerProcess) : Outcome × Graph :=
  if (topicName, m) ∈ M.pending then
    (.sent M.ipcNs m,
      { g.setManager pid (some { M with pending := M.pending.erase (topicName, m) }) with
        samples := ⟨topicName, some M.participant, m⟩ :: g.samples })
  else (.quiet, g)

/-- The process of the manager exits. -/
def exit (env : Env) (pid : Pid) : Outcome × Graph :=
  let i : Input := ⟨env, .processExitCleanup pid⟩
  (.called i, (g.setManager pid none).call i .fresh)

/-- One event. -/
def step (domainId : Nat) : GraphInput → Outcome × Graph
  | .ioctl i => (.called i, g.call i .fresh)
  | .launch env pid ipcNs nodeName => g.launch domainId env pid ipcNs nodeName
  | .createR2a env pid topicName => g.ofManager pid (g.createR2a env pid topicName)
  | .createA2r env pid topicName qosDepth transientLocal reliable eventfd =>
    g.ofManager pid (g.createA2r env pid topicName qosDepth transientLocal reliable eventfd)
  | .removeR2a env pid topicName => g.ofManager pid (g.removeR2a env pid topicName)
  | .removeA2r env pid topicName => g.ofManager pid (g.removeA2r env pid topicName)
  | .deliver env pid s addr => g.ofManager pid (g.deliver env pid s addr)
  | .receive env pid topicName size => g.ofManager pid (g.receive env pid topicName size)
  | .send pid topicName m => g.ofManager pid (g.send pid topicName m)
  | .ros2Publish topicName =>
    (.quiet, { g with samples := ⟨topicName, none, ⟨none, []⟩⟩ :: g.samples })
  | .forget s => (.quiet, { g with samples := g.samples.erase s })
  | .exit env pid => g.ofManager pid fun _ => g.exit env pid

end Graph

/-- The managers of a domain, on one graph. -/
def bridgedGraph (domainId : Nat) : Transition.System Graph GraphInput Outcome where
  init g := ∃ σ, moduleInit σ ∧ g = .initial σ
  step g i := g.step domainId i

/-! ## Echoes -/

/-- One event of the graph. -/
abbrev GraphEvent := Transition.Event Graph GraphInput Outcome

/-- **Nothing comes back**: what a call hands to a subscriber from a bridge publisher was not first
published in the subscriber's namespace, and what an A2R bridge sends was not injected into its
namespace. -/
def NoEcho (ev : GraphEvent) : Prop :=
  match ev.output with
  | .called i => ∀ target ∈ fetchTarget ev.pre.kmod i.call,
      ∀ ho ∈ handouts (eventOf ev.pre.kmod i),
      ∀ en ∈ (ev.pre.kmod.topicStructs ho.topic).entries, en.entryId = ho.entryId →
      ∀ p ∈ (ev.pre.kmod.topicStructs ho.topic).pubInfoHtable, p.id = en.publisherId →
        p.isBridge = true →
          (ev.pre.contents (ho.topic, ho.entryId)).origin ≠ some target.1.ipcNs
  | .sent ipcNs m => ipcNs ∉ m.injected
  | .quiet => True

instance : (ev : GraphEvent) → Decidable (NoEcho ev)
  | ⟨g, _, .called i⟩ => inferInstanceAs (Decidable (∀ target ∈ fetchTarget g.kmod i.call,
      ∀ ho ∈ handouts (eventOf g.kmod i), ∀ en ∈ _, _ → ∀ p ∈ _, _))
  | ⟨_, _, .sent ipcNs m⟩ => inferInstanceAs (Decidable (ipcNs ∉ m.injected))
  | ⟨_, _, .quiet⟩ => inferInstanceAs (Decidable True)

end Agnocast
