import Agnocast.Bridge.BridgeDecider

/-!
# The bridges — the decisions of two namespaces match

A bridge between two namespaces comes up when both ask for their half, and each decides
alone. What an agent asks for depends on its own endpoints, on who else has endpoints of the
other role, and on the type, which it looks for in all snapshots; so the halves match as soon
as every agent holds the snapshots of the others.

* `Gossip`, `HoldsOthers`   — what the snapshots are, and who holds them.
* `mem_bridgesFor`          — what one topic of a remote snapshot leads to.
* `request_of_agreement`    — the fields of a request do not depend on the order.
* `bridge_decisions_match`  — the halves match, for topics and for services.
-/

namespace Agnocast

/-! ## Visiting the remote snapshots -/

section Visits

variable {κ υ : Type} [DecidableEq κ]

/-- The items that the topics of the other namespaces lead to, in the order of iteration. -/
def visits (own : Name × Nat) (remoteStates : RemoteStates) (f : AgnocastTopic → List (κ × υ)) :
    List (κ × υ) :=
  remoteStates.flatMap fun e => if e.1 = own then [] else e.2.topics.flatMap f

theorem foldl_setdefaults (f : AgnocastTopic → List (κ × υ)) (d : List (κ × υ))
    (topics : List AgnocastTopic) :
    topics.foldl (fun requests t => Dict.setdefaults requests (f t)) d =
      Dict.setdefaults d (topics.flatMap f) := by
  induction topics generalizing d with
  | nil => rfl
  | cons t topics ih =>
    rw [List.foldl_cons, ih, List.flatMap_cons, Dict.setdefaults_append]

theorem foldl_visits (own : Name × Nat) (remoteStates : RemoteStates)
    (f : AgnocastTopic → List (κ × υ)) (d : List (κ × υ)) :
    remoteStates.foldl (fun requests e => if e.1 = own then requests
      else e.2.topics.foldl (fun requests t => Dict.setdefaults requests (f t)) requests) d =
      Dict.setdefaults d (visits own remoteStates f) := by
  induction remoteStates generalizing d with
  | nil => rfl
  | cons e remoteStates ih =>
    rw [List.foldl_cons, ih]
    unfold visits
    rw [List.flatMap_cons, Dict.setdefaults_append]
    split
    · rfl
    · rw [foldl_setdefaults]

omit [DecidableEq κ] in
theorem mem_visits {own : Name × Nat} {remoteStates : RemoteStates}
    {f : AgnocastTopic → List (κ × υ)} {x : κ × υ} :
    x ∈ visits own remoteStates f ↔
      ∃ e ∈ remoteStates, e.1 ≠ own ∧ ∃ t ∈ e.2.topics, x ∈ f t := by
  unfold visits
  rw [List.mem_flatMap]
  refine exists_congr fun e => and_congr_right fun _ => ?_
  split
  · next h => simp [h]
  · next h => rw [List.mem_flatMap, and_iff_right h]

end Visits

/-! ## The local topics and the types -/

variable {x z : AgnocastDaemonState} {remoteStates : RemoteStates} {t : AgnocastTopic}
  {k : Name × Nat}

theorem get_localByTopic (hnd : (x.topics.map AgnocastTopic.key).Nodup) {l : AgnocastTopic} :
    Dict.get (localByTopic x) k = some l ↔ l ∈ x.topics ∧ l.key = k := by
  have hnd' : ((x.topics.map fun t => (t.key, t)).map Prod.fst).Nodup := by
    rw [List.map_map]
    exact hnd
  unfold localByTopic
  rw [Dict.get_ofList hnd', Dict.get_eq_some_iff hnd', List.mem_map]
  constructor
  · rintro ⟨t, ht, heq⟩
    obtain ⟨rfl, rfl⟩ := Prod.mk.inj heq
    exact ⟨ht, rfl⟩
  · rintro ⟨hl, rfl⟩
    exact ⟨l, hl, rfl⟩

theorem mem_typeItems {topics : List AgnocastTopic} {type : Name} :
    (k, type) ∈ typeItems topics ↔ ∃ t ∈ topics, t.key = k ∧ t.typeName = type ∧ type ≠ [] := by
  unfold typeItems
  rw [List.mem_map]
  constructor
  · rintro ⟨t, ht, heq⟩
    obtain ⟨hmem, hne⟩ := List.mem_filter.mp ht
    obtain ⟨rfl, rfl⟩ := Prod.mk.inj heq
    exact ⟨t, hmem, rfl, rfl, by simpa using hne⟩
  · rintro ⟨t, ht, rfl, rfl, hne⟩
    exact ⟨t, List.mem_filter.mpr ⟨ht, by simpa using hne⟩, rfl⟩

theorem resolveTypes_eq (x : AgnocastDaemonState) (remoteStates : RemoteStates) :
    resolveTypes x remoteStates = Dict.setdefaults (Dict.ofList (typeItems x.topics))
      (remoteStates.flatMap fun e => typeItems e.2.topics) := by
  unfold resolveTypes
  generalize Dict.ofList (typeItems x.topics) = d
  induction remoteStates generalizing d with
  | nil => rfl
  | cons e remoteStates ih => rw [List.foldl_cons, ih, List.flatMap_cons, Dict.setdefaults_append]

theorem get_resolveTypes (hnd : (x.topics.map AgnocastTopic.key).Nodup) :
    Dict.get (resolveTypes x remoteStates) k = Dict.get (typeItems x.topics ++
      remoteStates.flatMap fun e => typeItems e.2.topics) k := by
  have hnd' : ((typeItems x.topics).map Prod.fst).Nodup := by
    unfold typeItems
    rw [List.map_map]
    exact (List.filter_sublist.map AgnocastTopic.key).nodup hnd
  rw [resolveTypes_eq, Dict.get_setdefaults, Dict.get_ofList hnd', Dict.get_append]

/-- The type of a topic comes from a snapshot that has it. -/
theorem type_of_get (hnd : (x.topics.map AgnocastTopic.key).Nodup) {type : Name}
    (h : Dict.get (resolveTypes x remoteStates) k = some type) :
    ∃ s, (s = x ∨ s ∈ remoteStates.map Prod.snd) ∧
      ∃ t ∈ s.topics, t.key = k ∧ t.typeName = type ∧ type ≠ [] := by
  rw [get_resolveTypes hnd] at h
  rcases List.mem_append.mp (Dict.mem_of_get h) with h | h
  · exact ⟨x, .inl rfl, mem_typeItems.mp h⟩
  · obtain ⟨e, he, h⟩ := List.mem_flatMap.mp h
    exact ⟨e.2, .inr (List.mem_map_of_mem he), mem_typeItems.mp h⟩

/-- A type that some snapshot has is found. -/
theorem exists_type (hnd : (x.topics.map AgnocastTopic.key).Nodup) {s : AgnocastDaemonState}
    (hs : s = x ∨ s ∈ remoteStates.map Prod.snd) (ht : t ∈ s.topics) (htype : t.typeName ≠ []) :
    ∃ type, Dict.get (resolveTypes x remoteStates) t.key = some type ∧ type ≠ [] := by
  have hitem : (t.key, t.typeName) ∈ typeItems s.topics :=
    mem_typeItems.mpr ⟨t, ht, rfl, rfl, htype⟩
  have hmem : (t.key, t.typeName) ∈ typeItems x.topics ++
      remoteStates.flatMap fun e => typeItems e.2.topics := by
    rcases hs with rfl | hs
    · exact List.mem_append_left _ hitem
    · obtain ⟨e, he, rfl⟩ := List.mem_map.mp hs
      exact List.mem_append_right _ (List.mem_flatMap.mpr ⟨e, he, hitem⟩)
  cases hget : Dict.get (resolveTypes x remoteStates) t.key with
  | none =>
    rw [get_resolveTypes hnd] at hget
    exact absurd (List.mem_map_of_mem (f := Prod.fst) hmem) (Dict.get_eq_none_iff.mp hget)
  | some type =>
    obtain ⟨-, -, -, -, -, -, hne⟩ := type_of_get hnd hget
    exact ⟨type, rfl, hne⟩

/-! ## What one topic of a remote snapshot leads to -/

/-- The topic is no request or response topic of a service. -/
def Plain (topicName : Name) : Prop :=
  srvRequestPrefix.isPrefixOf topicName = false ∧ srvResponsePrefix.isPrefixOf topicName = false

theorem notBridges_ne_nil_iff {endpoints : List AgnocastEndpoint} :
    notBridges endpoints ≠ [] ↔ ∃ e ∈ endpoints, e.isBridge = false := by
  unfold notBridges
  rw [Ne, List.filter_eq_nil_iff]
  simp

theorem mem_requestIf {l : AgnocastTopic} {type : Name} {direction : Nat}
    {locals remotes : List AgnocastEndpoint} {item : (Name × Nat × Nat) × BridgeRequest} :
    item ∈ requestIf l type direction locals remotes ↔ remotes ≠ [] ∧ ∃ endpoint rest,
      locals = endpoint :: rest ∧ item = ((l.topicName, l.domainId, direction),
        bridgeRequest l type direction endpoint) := by
  unfold requestIf
  split
  · simp
  · next hcases =>
    refine iff_of_false (List.not_mem_nil) ?_
    rintro ⟨hne, endpoint, rest, rfl, -⟩
    cases remotes with
    | nil => exact hne rfl
    | cons r remotes => exact hcases endpoint rest r remotes rfl rfl

/-- A request for a local topic in one direction: the local endpoints whose QoS it takes, and
the remote endpoints on whose account it is made. -/
inductive Half (l r : AgnocastTopic) : Nat → List AgnocastEndpoint → List AgnocastEndpoint → Prop
  | toRos2 : Half l r directionAgnocastToRos2 l.publishers r.subscribers
  | toAgnocast : Half l r directionRos2ToAgnocast l.subscribers r.publishers

/-- **What a topic of a remote snapshot leads to**: the topic is plain, the namespace has it
too, its type is known, and each side has an endpoint that is no bridge. -/
theorem mem_bridgesFor (hnd : (x.topics.map AgnocastTopic.key).Nodup)
    {item : (Name × Nat × Nat) × BridgeRequest} :
    item ∈ bridgesFor x remoteStates t ↔ Plain t.topicName ∧
      ∃ l ∈ x.topics, l.key = t.key ∧ ∃ type, type ≠ [] ∧
        Dict.get (resolveTypes x remoteStates) t.key = some type ∧
        ∃ direction locals remotes, Half l t direction locals remotes ∧ notBridges remotes ≠ [] ∧
          ∃ endpoint rest, notBridges locals = endpoint :: rest ∧
            item = ((l.topicName, l.domainId, direction),
              bridgeRequest l type direction endpoint) := by
  unfold bridgesFor
  split
  · next hsrv =>
    refine iff_of_false List.not_mem_nil ?_
    rintro ⟨hplain, -⟩
    rw [hplain.1, hplain.2] at hsrv
    cases hsrv
  · next hplain =>
    have hplain' : Plain t.topicName :=
      ⟨Bool.eq_false_iff.mpr fun h => hplain (by rw [h]; rfl),
        Bool.eq_false_iff.mpr fun h => hplain (by rw [h, Bool.or_true])⟩
    rw [and_iff_right hplain']
    cases hlocal : Dict.get (localByTopic x) t.key with
    | none =>
      refine iff_of_false List.not_mem_nil ?_
      rintro ⟨l, hl, hkey, -⟩
      rw [(get_localByTopic hnd).mpr ⟨hl, hkey⟩] at hlocal
      cases hlocal
    | some l =>
      obtain ⟨hl, hkey⟩ := (get_localByTopic hnd).mp hlocal
      -- the namespace lists the topic once
      have honly : ∀ l' ∈ x.topics, l'.key = t.key → l' = l := fun l' hl' hkey' =>
        List.inj_on_of_nodup_map hnd hl' hl (hkey'.trans hkey.symm)
      simp only
      split
      · next htype =>
        refine iff_of_false List.not_mem_nil ?_
        rintro ⟨l', -, -, type, -, htype', -⟩
        rw [← hkey, htype] at htype'
        cases htype'
      · next htype =>
        refine iff_of_false List.not_mem_nil ?_
        rintro ⟨l', -, -, type, hne, htype', -⟩
        rw [← hkey, htype] at htype'
        exact hne (Option.some.inj htype').symm
      · next type hne htype =>
        rw [List.mem_append, mem_requestIf, mem_requestIf]
        constructor
        · rintro (⟨hremote, endpoint, rest, hlocals, rfl⟩ | ⟨hremote, endpoint, rest, hlocals, rfl⟩)
          · exact ⟨l, hl, hkey, type, fun h => hne h, hkey ▸ htype, _, _, _, .toRos2, hremote,
              endpoint, rest, hlocals, rfl⟩
          · exact ⟨l, hl, hkey, type, fun h => hne h, hkey ▸ htype, _, _, _, .toAgnocast, hremote,
              endpoint, rest, hlocals, rfl⟩
        · rintro ⟨l', hl', hkey', type', -, htype', direction, locals, remotes, hhalf, hremote,
            endpoint, rest, hlocals, rfl⟩
          obtain rfl := honly l' hl' hkey'
          obtain rfl : type = type' := by
            rw [hkey, htype'] at htype
            exact (Option.some.inj htype).symm
          cases hhalf with
          | toRos2 => exact .inl ⟨hremote, endpoint, rest, hlocals, rfl⟩
          | toAgnocast => exact .inr ⟨hremote, endpoint, rest, hlocals, rfl⟩

/-! ## What a namespace asks for -/

/-- The namespace has a publisher of the topic that is no bridge. -/
def HasPublisher (s : AgnocastDaemonState) (k : Name × Nat) : Prop :=
  ∃ t ∈ s.topics, t.key = k ∧ ∃ p ∈ t.publishers, p.isBridge = false

/-- The namespace has a subscriber of the topic that is no bridge. -/
def HasSubscriber (s : AgnocastDaemonState) (k : Name × Nat) : Prop :=
  ∃ t ∈ s.topics, t.key = k ∧ ∃ p ∈ t.subscribers, p.isBridge = false

/-- The snapshot has a type for the topic. -/
def HasType (s : AgnocastDaemonState) (k : Name × Nat) : Prop :=
  ∃ t ∈ s.topics, t.key = k ∧ t.typeName ≠ []

/-- The namespace asks for the bridge of the topic in the direction. -/
def Requests (x : AgnocastDaemonState) (remoteStates : RemoteStates) (k : Name × Nat)
    (direction : Nat) : Prop :=
  ∃ r ∈ decideBridges x remoteStates, r.key = (k.1, k.2, direction)

/-- The snapshot of `z` is a reason for it: a topic in it leads to the request. -/
def Reason (x : AgnocastDaemonState) (remoteStates : RemoteStates) (z : AgnocastDaemonState)
    (k : Name × Nat) (direction : Nat) : Prop :=
  ∃ e ∈ remoteStates, e.2 = z ∧ e.1 ≠ x.key ∧ ∃ t ∈ z.topics,
    ∃ r, ((k.1, k.2, direction), r) ∈ bridgesFor x remoteStates t

/-- **The snapshots of a set of namespaces**: the namespaces are distinct, and each lists a
topic of a domain at most once. -/
structure Gossip (states : List AgnocastDaemonState) : Prop where
  distinct : (states.map AgnocastDaemonState.key).Nodup
  topics : ∀ s ∈ states, (s.topics.map AgnocastTopic.key).Nodup

/-- The map of a namespace, in some order of iteration, holds the snapshots of all others. -/
structure HoldsOthers (states : List AgnocastDaemonState) (x : AgnocastDaemonState)
    (remoteStates : RemoteStates) : Prop where
  keys : ∀ e ∈ remoteStates, e.1 = e.2.key
  known : ∀ e ∈ remoteStates, e.2 ∈ states
  others : ∀ z ∈ states, z ≠ x → (z.key, z) ∈ remoteStates

theorem Gossip.key_ne {states : List AgnocastDaemonState} (hgossip : Gossip states)
    (hx : x ∈ states) (hz : z ∈ states) (hne : z ≠ x) : z.key ≠ x.key := fun heq =>
  hne (List.inj_on_of_nodup_map hgossip.distinct hz hx heq)

theorem bridgeRequests_eq (x : AgnocastDaemonState) (remoteStates : RemoteStates) :
    bridgeRequests x remoteStates =
      Dict.setdefaults [] (visits x.key remoteStates (bridgesFor x remoteStates)) :=
  foldl_visits _ _ _ _

/-- An item stands under the key of its request. -/
theorem key_of_mem_bridgesFor (hnd : (x.topics.map AgnocastTopic.key).Nodup)
    {item : (Name × Nat × Nat) × BridgeRequest} (h : item ∈ bridgesFor x remoteStates t) :
    item.2.key = item.1 := by
  obtain ⟨-, l, -, -, type, -, -, direction, locals, remotes, -, -, endpoint, rest, -, rfl⟩ :=
    (mem_bridgesFor hnd).mp h
  rfl

theorem key_of_mem_bridgeRequests (hnd : (x.topics.map AgnocastTopic.key).Nodup)
    {item : (Name × Nat × Nat) × BridgeRequest} (h : item ∈ bridgeRequests x remoteStates) :
    item.2.key = item.1 := by
  rw [bridgeRequests_eq] at h
  obtain ⟨e, -, -, t, -, hitem⟩ := mem_visits.mp (Dict.mem_of_mem_setdefaults h)
  exact key_of_mem_bridgesFor hnd hitem

/-- **A request has a reason**, and a reason leads to a request. -/
theorem requests_iff_reason (hnd : (x.topics.map AgnocastTopic.key).Nodup) {direction : Nat} :
    Requests x remoteStates k direction ↔ ∃ z, Reason x remoteStates z k direction := by
  have hdict : Requests x remoteStates k direction ↔
      ∃ r, ((k.1, k.2, direction), r) ∈ bridgeRequests x remoteStates := by
    constructor
    · rintro ⟨r, hr, hkey⟩
      obtain ⟨item, hitem, rfl⟩ := List.mem_map.mp hr
      refine ⟨item.2, ?_⟩
      rw [← hkey, key_of_mem_bridgeRequests hnd hitem]
      exact hitem
    · rintro ⟨r, hr⟩
      exact ⟨r, List.mem_map_of_mem hr, key_of_mem_bridgeRequests hnd hr⟩
  rw [hdict, bridgeRequests_eq, Dict.exists_mem_setdefaults]
  constructor
  · rintro ⟨r, hr⟩
    obtain ⟨e, he, hne, t, ht, hitem⟩ := mem_visits.mp hr
    exact ⟨e.2, e, he, rfl, hne, t, ht, r, hitem⟩
  · rintro ⟨z, e, he, rfl, hne, t, ht, r, hitem⟩
    exact ⟨r, mem_visits.mpr ⟨e, he, hne, t, ht, hitem⟩⟩

/-- What a namespace needs of its own for a request in the direction. -/
def LocalRole (s : AgnocastDaemonState) (k : Name × Nat) (direction : Nat) : Prop :=
  direction = directionAgnocastToRos2 ∧ HasPublisher s k ∨
    direction = directionRos2ToAgnocast ∧ HasSubscriber s k

/-- What another namespace needs to be a reason for it. -/
def RemoteRole (s : AgnocastDaemonState) (k : Name × Nat) (direction : Nat) : Prop :=
  direction = directionAgnocastToRos2 ∧ HasSubscriber s k ∨
    direction = directionRos2ToAgnocast ∧ HasPublisher s k

/-- **Who is a reason for what**: for a plain topic with a type, another namespace that has
the opposite role. -/
theorem reason_iff {states : List AgnocastDaemonState} (hgossip : Gossip states)
    (hholds : HoldsOthers states x remoteStates) (hx : x ∈ states) (hplain : Plain k.1)
    (htype : ∃ s ∈ states, HasType s k) {direction : Nat} :
    Reason x remoteStates z k direction ↔
      z ∈ states ∧ z ≠ x ∧ LocalRole x k direction ∧ RemoteRole z k direction := by
  have hnd := hgossip.topics x hx
  constructor
  · rintro ⟨e, he, rfl, hne, t, ht, r, hitem⟩
    have hz : e.2 ≠ x := fun heq => hne ((hholds.keys e he).trans (congrArg _ heq))
    refine ⟨hholds.known e he, hz, ?_⟩
    obtain ⟨-, l, hl, hkey, type, -, -, direction', locals, remotes, hhalf, hremote, endpoint,
      rest, hlocals, heq⟩ := (mem_bridgesFor hnd).mp hitem
    obtain ⟨hk, -⟩ := Prod.mk.inj heq
    obtain ⟨hname, hk⟩ := Prod.mk.inj hk
    obtain ⟨hdomain, rfl⟩ := Prod.mk.inj hk
    have hlk : l.key = k := Prod.ext hname.symm hdomain.symm
    have hlocal := notBridges_ne_nil_iff.mp (hlocals ▸ List.cons_ne_nil endpoint rest)
    have hremote := notBridges_ne_nil_iff.mp hremote
    cases hhalf with
    | toRos2 =>
      exact ⟨.inl ⟨rfl, l, hl, hlk, hlocal⟩, .inl ⟨rfl, t, ht, hkey ▸ hlk, hremote⟩⟩
    | toAgnocast =>
      exact ⟨.inr ⟨rfl, l, hl, hlk, hlocal⟩, .inr ⟨rfl, t, ht, hkey ▸ hlk, hremote⟩⟩
  · rintro ⟨hz, hne, hlocal, hremote⟩
    obtain ⟨s, hs, t, ht, rfl, htype⟩ := htype
    -- the type is found in the snapshot that has it
    have hs' : s = x ∨ s ∈ remoteStates.map Prod.snd := by
      by_cases heq : s = x
      · exact .inl heq
      · exact .inr (List.mem_map_of_mem (f := Prod.snd) (hholds.others s hs heq))
    obtain ⟨type, hget, htype'⟩ := exists_type hnd hs' ht htype
    have hitem : ∀ l ∈ x.topics, ∀ r ∈ z.topics, l.key = t.key → r.key = t.key →
        ∀ locals remotes, Half l r direction locals remotes → (∃ p ∈ locals, p.isBridge = false) →
          (∃ p ∈ remotes, p.isBridge = false) →
            Reason x remoteStates z t.key direction := by
      intro l hl r hr hlk hrk locals remotes hhalf hlocal hremote
      refine ⟨(z.key, z), hholds.others z hz hne, rfl, hgossip.key_ne hx hz hne, r, hr, ?_⟩
      obtain ⟨endpoint, rest, hlocals⟩ : ∃ endpoint rest, notBridges locals = endpoint :: rest :=
        List.exists_cons_of_ne_nil (notBridges_ne_nil_iff.mpr hlocal)
      refine ⟨bridgeRequest l type direction endpoint, (mem_bridgesFor hnd).mpr ⟨?_, l, hl,
        hlk.trans hrk.symm, type, htype', hrk ▸ hget, direction, locals, remotes, hhalf,
        notBridges_ne_nil_iff.mpr hremote, endpoint, rest, hlocals, ?_⟩⟩
      · have hname : r.topicName = t.key.1 := congrArg Prod.fst hrk
        rw [hname]
        exact hplain
      · rw [← hlk]
        rfl
    rcases hlocal with ⟨rfl, l, hl, hlk, hpub⟩ | ⟨rfl, l, hl, hlk, hsub⟩
    · rcases hremote with ⟨-, r, hr, hrk, hsub⟩ | ⟨hne', -⟩
      · exact hitem l hl r hr hlk hrk _ _ .toRos2 hpub hsub
      · cases hne'
    · rcases hremote with ⟨hne', -⟩ | ⟨-, r, hr, hrk, hpub⟩
      · cases hne'
      · exact hitem l hl r hr hlk hrk _ _ .toAgnocast hsub hpub

/-! ## Fields that do not depend on the order -/

/-- The snapshots that have a type for the topic have the same. -/
def TypesAgree (states : List AgnocastDaemonState) (k : Name × Nat) : Prop :=
  ∀ s ∈ states, ∀ s' ∈ states, ∀ t ∈ s.topics, ∀ t' ∈ s'.topics, t.key = k → t'.key = k →
    t.typeName ≠ [] → t'.typeName ≠ [] → t.typeName = t'.typeName

theorem type_unique {states : List AgnocastDaemonState} (hgossip : Gossip states)
    (hx : x ∈ states) {remoteStates' : RemoteStates} (hholds : HoldsOthers states x remoteStates)
    (hholds' : HoldsOthers states x remoteStates') (hagree : TypesAgree states k)
    {type type' : Name} (h : Dict.get (resolveTypes x remoteStates) k = some type)
    (h' : Dict.get (resolveTypes x remoteStates') k = some type') : type = type' := by
  have hnd := hgossip.topics x hx
  have hmem : ∀ {rs s}, HoldsOthers states x rs → (s = x ∨ s ∈ rs.map Prod.snd) → s ∈ states := by
    rintro rs s hh (rfl | hs)
    · exact hx
    · obtain ⟨e, he, rfl⟩ := List.mem_map.mp hs
      exact hh.known e he
  obtain ⟨s, hs, t, ht, hk, rfl, hne⟩ := type_of_get hnd h
  obtain ⟨s', hs', t', ht', hk', rfl, hne'⟩ := type_of_get hnd h'
  exact hagree s (hmem hholds hs) s' (hmem hholds' hs') t ht t' ht' hk hk' hne hne'

/-- **The fields of a request do not depend on the order of iteration** when the snapshots
agree on the type. -/
theorem request_of_agreement {states : List AgnocastDaemonState} (hgossip : Gossip states)
    (hx : x ∈ states) {remoteStates' : RemoteStates} (hholds : HoldsOthers states x remoteStates)
    (hholds' : HoldsOthers states x remoteStates') {r r' : BridgeRequest}
    (hr : r ∈ decideBridges x remoteStates) (hr' : r' ∈ decideBridges x remoteStates')
    (hkey : r.key = r'.key) (hagree : TypesAgree states (r.topicName, r.domainId)) : r = r' := by
  have hnd := hgossip.topics x hx
  -- a request is determined by the local topic, the type and the direction
  have hform : ∀ {rs : RemoteStates} {r : BridgeRequest}, r ∈ decideBridges x rs →
      ∃ l ∈ x.topics, ∃ type, Dict.get (resolveTypes x rs) l.key = some type ∧
        ∃ direction locals, (∃ t remotes, Half l t direction locals remotes) ∧
          ∃ endpoint rest, notBridges locals = endpoint :: rest ∧
            r = bridgeRequest l type direction endpoint := by
    intro rs r hr
    obtain ⟨item, hitem, rfl⟩ := List.mem_map.mp hr
    rw [bridgeRequests_eq] at hitem
    obtain ⟨e, -, -, t, -, hitem⟩ := mem_visits.mp (Dict.mem_of_mem_setdefaults hitem)
    obtain ⟨-, l, hl, hlk, type, -, hget, direction, locals, remotes, hhalf, -, endpoint, rest,
      hlocals, rfl⟩ := (mem_bridgesFor hnd).mp hitem
    exact ⟨l, hl, type, hlk ▸ hget, direction, locals, ⟨t, remotes, hhalf⟩, endpoint, rest, hlocals,
      rfl⟩
  obtain ⟨l, hl, type, hget, direction, locals, ⟨t, remotes, hhalf⟩, endpoint, rest, hlocals,
    rfl⟩ := hform hr
  obtain ⟨l', hl', type', hget', direction', locals', ⟨t', remotes', hhalf'⟩, endpoint', rest',
    hlocals', rfl⟩ := hform hr'
  obtain ⟨hname, hrest⟩ := Prod.mk.inj hkey
  obtain ⟨hdomain, hdirection⟩ := Prod.mk.inj hrest
  obtain rfl : l = l' := List.inj_on_of_nodup_map hnd hl hl' (Prod.ext hname hdomain)
  obtain rfl : type = type' := type_unique hgossip hx hholds hholds' hagree hget hget'
  obtain rfl : direction = direction' := hdirection
  obtain rfl : locals = locals' := by
    cases hhalf <;> cases hhalf' <;> rfl
  rw [hlocals] at hlocals'
  rw [(List.cons.inj hlocals').1]

/-! ## Bridge endpoints -/

def AgnocastTopic.withoutBridges (t : AgnocastTopic) : AgnocastTopic :=
  { t with publishers := notBridges t.publishers, subscribers := notBridges t.subscribers }

/-- The snapshot without the endpoints of bridges. -/
def AgnocastDaemonState.withoutBridges (s : AgnocastDaemonState) : AgnocastDaemonState :=
  { s with topics := s.topics.map AgnocastTopic.withoutBridges }

def RemoteStates.withoutBridges (remoteStates : RemoteStates) : RemoteStates :=
  remoteStates.map fun e => (e.1, e.2.withoutBridges)

theorem notBridges_notBridges (endpoints : List AgnocastEndpoint) :
    notBridges (notBridges endpoints) = notBridges endpoints := by
  unfold notBridges
  rw [List.filter_filter]
  simp

theorem typeItems_withoutBridges (topics : List AgnocastTopic) :
    typeItems (topics.map AgnocastTopic.withoutBridges) = typeItems topics := by
  unfold typeItems
  rw [List.filter_map, List.map_map]
  rfl

theorem resolveTypes_withoutBridges (x : AgnocastDaemonState) (remoteStates : RemoteStates) :
    resolveTypes x.withoutBridges remoteStates.withoutBridges = resolveTypes x remoteStates := by
  have hitems : ∀ s : AgnocastDaemonState, typeItems s.withoutBridges.topics = typeItems s.topics :=
    fun s => typeItems_withoutBridges s.topics
  rw [resolveTypes_eq, resolveTypes_eq]
  unfold RemoteStates.withoutBridges
  rw [List.flatMap_map]
  simp only [hitems]

theorem get_localByTopic_withoutBridges (hnd : (x.topics.map AgnocastTopic.key).Nodup) :
    Dict.get (localByTopic x.withoutBridges) k =
      (Dict.get (localByTopic x) k).map AgnocastTopic.withoutBridges := by
  have hnd' : ((x.topics.map fun t => (t.key, t)).map Prod.fst).Nodup := by
    rw [List.map_map]
    exact hnd
  have hmap : (x.withoutBridges.topics.map fun t => (t.key, t)) =
      (x.topics.map fun t => (t.key, t)).map fun e => (e.1, e.2.withoutBridges) := by
    unfold AgnocastDaemonState.withoutBridges
    rw [List.map_map, List.map_map]
    rfl
  unfold localByTopic
  rw [Dict.get_ofList hnd', hmap, Dict.get_ofList (by rw [List.map_map]; exact hnd'), Dict.get_map]

theorem bridgesFor_withoutBridges (hnd : (x.topics.map AgnocastTopic.key).Nodup) :
    bridgesFor x.withoutBridges remoteStates.withoutBridges t.withoutBridges =
      bridgesFor x remoteStates t := by
  unfold bridgesFor
  rw [resolveTypes_withoutBridges, show t.withoutBridges.key = t.key from rfl,
    get_localByTopic_withoutBridges hnd]
  cases Dict.get (localByTopic x) t.key with
  | none => rfl
  | some l =>
    simp only [Option.map_some, AgnocastTopic.withoutBridges, notBridges_notBridges]
    rfl

theorem visits_withoutBridges {κ υ : Type} {f g : AgnocastTopic → List (κ × υ)}
    (h : ∀ t, g t.withoutBridges = f t) :
    visits x.withoutBridges.key remoteStates.withoutBridges g = visits x.key remoteStates f := by
  unfold visits RemoteStates.withoutBridges
  rw [List.flatMap_map]
  refine List.flatMap_congr fun e _ => ?_
  show (if e.1 = x.key then [] else (e.2.topics.map AgnocastTopic.withoutBridges).flatMap g) = _
  rw [List.flatMap_map, funext h]

/-- **Bridge endpoints cause no request.** -/
theorem decideBridges_withoutBridges (hnd : (x.topics.map AgnocastTopic.key).Nodup) :
    decideBridges x.withoutBridges remoteStates.withoutBridges = decideBridges x remoteStates := by
  unfold decideBridges
  rw [bridgeRequests_eq, bridgeRequests_eq,
    visits_withoutBridges fun t => bridgesFor_withoutBridges (t := t) hnd]

/-! ## Services -/

theorem serviceNameOf_eq_some_iff {topicName s : Name} :
    serviceNameOf topicName = some s ↔ topicName = srvRequestPrefix ++ s ∧ ['/'] <+: s := by
  unfold serviceNameOf
  split
  · next h =>
    obtain ⟨rest, rfl⟩ := List.isPrefixOf_iff_prefix.mp h
    rw [List.drop_left]
    simp only [List.append_cancel_left_eq]
    split
    · next hslash =>
      rw [Option.some.injEq]
      refine ⟨fun heq => ⟨heq, heq ▸ List.isPrefixOf_iff_prefix.mp hslash⟩, fun h => h.1⟩
    · next hslash =>
      refine iff_of_false nofun fun h => hslash (List.isPrefixOf_iff_prefix.mpr ?_)
      rw [h.1]
      exact h.2
  · next h =>
    refine iff_of_false nofun fun hs => h (List.isPrefixOf_iff_prefix.mpr ?_)
    rw [hs.1]
    exact List.prefix_append _ _

theorem serviceBridgeRequests_eq (x : AgnocastDaemonState) (remoteStates : RemoteStates) :
    serviceBridgeRequests x remoteStates =
      Dict.setdefaults [] (visits x.key remoteStates (serviceBridgesFor x)) :=
  foldl_visits _ _ _ _

theorem mem_serviceBridgesFor (hnd : (x.topics.map AgnocastTopic.key).Nodup)
    {item : (Name × Nat) × ServiceBridgeRequest} :
    item ∈ serviceBridgesFor x t ↔ ∃ s d, t.key = (srvRequestPrefix ++ s, d) ∧ ['/'] <+: s ∧
      HasSubscriber x t.key ∧ (∃ p ∈ t.publishers, p.isBridge = false) ∧
        item = ((s, d), ⟨s, d⟩) := by
  unfold serviceBridgesFor
  cases hservice : serviceNameOf t.topicName with
  | none =>
    refine iff_of_false List.not_mem_nil ?_
    rintro ⟨s, d, hkey, hslash, -⟩
    have hname : t.topicName = srvRequestPrefix ++ s := congrArg Prod.fst hkey
    rw [serviceNameOf_eq_some_iff.mpr ⟨hname, hslash⟩] at hservice
    cases hservice
  | some s =>
    obtain ⟨hname, hslash⟩ := serviceNameOf_eq_some_iff.mp hservice
    cases hlocal : Dict.get (localByTopic x) t.key with
    | none =>
      refine iff_of_false List.not_mem_nil ?_
      rintro ⟨s', d, -, -, ⟨l, hl, hlk, -⟩, -⟩
      rw [(get_localByTopic hnd).mpr ⟨hl, hlk⟩] at hlocal
      cases hlocal
    | some l =>
      obtain ⟨hl, hlk⟩ := (get_localByTopic hnd).mp hlocal
      have hdomain : l.domainId = t.domainId := congrArg Prod.snd hlk
      simp only
      rw [List.mem_ite_nil_right, List.mem_singleton, notBridges_ne_nil_iff, notBridges_ne_nil_iff]
      constructor
      · rintro ⟨⟨hsub, hpub⟩, rfl⟩
        refine ⟨s, l.domainId, ?_, hslash, ⟨l, hl, hlk, hsub⟩, hpub, rfl⟩
        rw [hdomain, ← hname]
        rfl
      · rintro ⟨s', d, hkey, -, ⟨l', hl', hlk', hsub⟩, hpub, rfl⟩
        obtain rfl : l' = l := List.inj_on_of_nodup_map hnd hl' hl (hlk'.trans hlk.symm)
        obtain ⟨hname', hdomain'⟩ := Prod.mk.inj hkey
        rw [hname, List.append_cancel_left_eq] at hname'
        refine ⟨⟨hsub, hpub⟩, ?_⟩
        rw [hname', hdomain, ← hdomain']

/-- **Who leases a service**: the namespaces that have it while another has a client. -/
theorem mem_decideServiceBridges {states : List AgnocastDaemonState} (hgossip : Gossip states)
    (hholds : HoldsOthers states x remoteStates) (hx : x ∈ states) {s : Name} {d : Nat} :
    ⟨s, d⟩ ∈ decideServiceBridges x remoteStates ↔ ['/'] <+: s ∧
      HasSubscriber x (srvRequestPrefix ++ s, d) ∧
        ∃ z ∈ states, z ≠ x ∧ HasPublisher z (srvRequestPrefix ++ s, d) := by
  have hnd := hgossip.topics x hx
  constructor
  · intro h
    obtain ⟨item, hitem, heq⟩ := List.mem_map.mp h
    rw [serviceBridgeRequests_eq] at hitem
    obtain ⟨e, he, hne, t, ht, hitem⟩ := mem_visits.mp (Dict.mem_of_mem_setdefaults hitem)
    obtain ⟨s', d', hkey, hslash, hsub, hpub, rfl⟩ := (mem_serviceBridgesFor hnd).mp hitem
    obtain ⟨rfl, rfl⟩ := ServiceBridgeRequest.mk.inj heq
    refine ⟨hslash, hkey ▸ hsub, e.2, hholds.known e he, fun h => hne ?_, t, ht, hkey, hpub⟩
    exact (hholds.keys e he).trans (congrArg _ h)
  · rintro ⟨hslash, hsub, z, hz, hne, t, ht, hkey, hpub⟩
    have hitem : ((s, d), ⟨s, d⟩) ∈ visits x.key remoteStates (serviceBridgesFor x) :=
      mem_visits.mpr ⟨(z.key, z), hholds.others z hz hne, hgossip.key_ne hx hz hne, t, ht,
        (mem_serviceBridgesFor hnd).mpr ⟨s, d, hkey, hslash, hkey ▸ hsub, hpub, rfl⟩⟩
    obtain ⟨r, hr⟩ := Dict.exists_mem_setdefaults.mpr ⟨_, hitem⟩
    -- the request under the key of a service is for the service
    obtain ⟨e, -, -, t', -, hitem'⟩ := mem_visits.mp (Dict.mem_of_mem_setdefaults hr)
    obtain ⟨s', d', -, -, -, -, heq⟩ := (mem_serviceBridgesFor hnd).mp hitem'
    obtain ⟨hk, rfl⟩ := Prod.mk.inj heq
    obtain ⟨rfl, rfl⟩ := Prod.mk.inj hk
    refine List.mem_map.mpr ⟨((s, d), ⟨s, d⟩), ?_, rfl⟩
    rw [serviceBridgeRequests_eq]
    exact hr

theorem serviceBridgesFor_withoutBridges (hnd : (x.topics.map AgnocastTopic.key).Nodup) :
    serviceBridgesFor x.withoutBridges t.withoutBridges = serviceBridgesFor x t := by
  unfold serviceBridgesFor
  rw [show t.withoutBridges.key = t.key from rfl, get_localByTopic_withoutBridges hnd]
  cases Dict.get (localByTopic x) t.key with
  | none => rfl
  | some l =>
    simp only [Option.map_some, AgnocastTopic.withoutBridges, notBridges_notBridges]

theorem decideServiceBridges_withoutBridges (hnd : (x.topics.map AgnocastTopic.key).Nodup) :
    decideServiceBridges x.withoutBridges remoteStates.withoutBridges =
      decideServiceBridges x remoteStates := by
  unfold decideServiceBridges
  rw [serviceBridgeRequests_eq, serviceBridgeRequests_eq,
    visits_withoutBridges fun t => serviceBridgesFor_withoutBridges (t := t) hnd]

/-! ## The halves match -/

/-- One request a key. -/
theorem nodup_decideBridges (hnd : (x.topics.map AgnocastTopic.key).Nodup) :
    ((decideBridges x remoteStates).map BridgeRequest.key).Nodup := by
  have hkeys : (decideBridges x remoteStates).map BridgeRequest.key =
      (bridgeRequests x remoteStates).map Prod.fst := by
    unfold decideBridges
    rw [List.map_map]
    exact List.map_congr_left fun item hitem => key_of_mem_bridgeRequests hnd hitem
  rw [hkeys, bridgeRequests_eq]
  exact Dict.nodup_keys_setdefaults List.nodup_nil

/-- **The decisions of the namespaces match.** For a plain topic whose type some snapshot has:
a namespace asks for the bridge to ROS 2 exactly when it has a publisher and another one a
subscriber, then each of the others asks for the bridge from ROS 2 with it among its reasons,
and the other way round. Bridge endpoints cause no request; there is one request for a topic, a
domain and a direction, with fields that do not depend on the order when the snapshots agree on
the type; and a service is leased exactly where it is, while another namespace has a client. -/
theorem bridge_decisions_match {states : List AgnocastDaemonState} (hgossip : Gossip states)
    {remotes : AgnocastDaemonState → RemoteStates}
    (hholds : ∀ x ∈ states, HoldsOthers states x (remotes x)) :
    (∀ k : Name × Nat, Plain k.1 → (∃ s ∈ states, HasType s k) →
      (∀ x ∈ states, Requests x (remotes x) k directionAgnocastToRos2 ↔
        HasPublisher x k ∧ ∃ z ∈ states, z ≠ x ∧ HasSubscriber z k) ∧
      (∀ z ∈ states, Requests z (remotes z) k directionRos2ToAgnocast ↔
        HasSubscriber z k ∧ ∃ x ∈ states, x ≠ z ∧ HasPublisher x k) ∧
      (∀ x ∈ states, ∀ z ∈ states, x ≠ z →
        (Reason x (remotes x) z k directionAgnocastToRos2 ↔
          HasPublisher x k ∧ HasSubscriber z k) ∧
        (Reason z (remotes z) x k directionRos2ToAgnocast ↔
          HasPublisher x k ∧ HasSubscriber z k))) ∧
    (∀ x ∈ states, decideBridges x.withoutBridges (remotes x).withoutBridges =
        decideBridges x (remotes x) ∧
      decideServiceBridges x.withoutBridges (remotes x).withoutBridges =
        decideServiceBridges x (remotes x)) ∧
    (∀ x ∈ states, ((decideBridges x (remotes x)).map BridgeRequest.key).Nodup) ∧
    (∀ x ∈ states, ∀ remotes', HoldsOthers states x remotes' →
      ∀ r ∈ decideBridges x (remotes x), ∀ r' ∈ decideBridges x remotes', r.key = r'.key →
        TypesAgree states (r.topicName, r.domainId) → r = r') ∧
    (∀ x ∈ states, ∀ s d, ⟨s, d⟩ ∈ decideServiceBridges x (remotes x) ↔
      ['/'] <+: s ∧ HasSubscriber x (srvRequestPrefix ++ s, d) ∧
        ∃ z ∈ states, z ≠ x ∧ HasPublisher z (srvRequestPrefix ++ s, d)) := by
  have hdirections : directionAgnocastToRos2 ≠ directionRos2ToAgnocast := by decide
  -- who has the publisher and who the subscriber depends on the direction alone
  have htoRos2 : ∀ {s k}, (LocalRole s k directionAgnocastToRos2 ↔ HasPublisher s k) ∧
      (RemoteRole s k directionAgnocastToRos2 ↔ HasSubscriber s k) := fun {s k} => by
    simp [LocalRole, RemoteRole, hdirections]
  have htoAgnocast : ∀ {s k}, (LocalRole s k directionRos2ToAgnocast ↔ HasSubscriber s k) ∧
      (RemoteRole s k directionRos2ToAgnocast ↔ HasPublisher s k) := fun {s k} => by
    simp [LocalRole, RemoteRole, hdirections.symm]
  refine ⟨fun k hplain htype => ⟨fun x hx => ?_, fun z hz => ?_, fun x hx z hz hne => ⟨?_, ?_⟩⟩,
    fun x hx => ⟨decideBridges_withoutBridges (hgossip.topics x hx),
      decideServiceBridges_withoutBridges (hgossip.topics x hx)⟩,
    fun x hx => nodup_decideBridges (hgossip.topics x hx), ?_,
    fun x hx s d => mem_decideServiceBridges hgossip (hholds x hx) hx⟩
  · rw [requests_iff_reason (hgossip.topics x hx)]
    simp only [reason_iff hgossip (hholds x hx) hx hplain htype, htoRos2.1, htoRos2.2]
    constructor
    · rintro ⟨z, hz, hne, hpub, hsub⟩
      exact ⟨hpub, z, hz, hne, hsub⟩
    · rintro ⟨hpub, z, hz, hne, hsub⟩
      exact ⟨z, hz, hne, hpub, hsub⟩
  · rw [requests_iff_reason (hgossip.topics z hz)]
    simp only [reason_iff hgossip (hholds z hz) hz hplain htype, htoAgnocast.1, htoAgnocast.2]
    constructor
    · rintro ⟨x, hx, hne, hsub, hpub⟩
      exact ⟨hsub, x, hx, hne, hpub⟩
    · rintro ⟨hsub, x, hx, hne, hpub⟩
      exact ⟨x, hx, hne, hsub, hpub⟩
  · rw [reason_iff hgossip (hholds x hx) hx hplain htype, htoRos2.1, htoRos2.2]
    exact ⟨fun h => h.2.2, fun h => ⟨hz, hne.symm, h⟩⟩
  · rw [reason_iff hgossip (hholds z hz) hz hplain htype, htoAgnocast.1, htoAgnocast.2]
    exact ⟨fun h => h.2.2.symm, fun h => ⟨hx, hne, h.symm⟩⟩
  · intro x hx remotes' hholds' r hr r' hr' hkey hagree
    exact request_of_agreement hgossip hx (hholds x hx) hholds' hr hr' hkey hagree

/-- Two namespaces, one with a publisher of a topic whose type it does not know, the other with
a subscriber. -/
theorem bridge_decisions_match_of_two :
    let x : AgnocastDaemonState := ⟨"HOST".toList, 111,
      [⟨"/x".toList, [], 0, [⟨10, false, true, false⟩], []⟩]⟩
    let z : AgnocastDaemonState := ⟨"OTHER".toList, 222,
      [⟨"/x".toList, "Int32".toList, 0, [], [⟨1, true, true, false⟩]⟩]⟩
    Requests x [(z.key, z)] ("/x".toList, 0) directionAgnocastToRos2 ∧
      Reason z [(x.key, x)] x ("/x".toList, 0) directionRos2ToAgnocast := by
  intro x z
  have hgossip : Gossip [x, z] := ⟨by decide, by decide⟩
  have hholds : ∀ s ∈ [x, z],
      HoldsOthers [x, z] s (if s = x then [(z.key, z)] else [(x.key, x)]) := fun s hs => by
    rcases List.mem_pair.mp hs with rfl | rfl
    · exact ⟨by decide, by decide, by decide⟩
    · exact ⟨by decide, by decide, by decide⟩
  have h := bridge_decisions_match hgossip hholds
  obtain ⟨htoRos2, -, hreasons⟩ := h.1 ("/x".toList, 0) ⟨by decide, by decide⟩
    ⟨z, by decide, _, List.mem_cons_self, rfl, by decide⟩
  have hpub : HasPublisher x ("/x".toList, 0) :=
    ⟨_, List.mem_cons_self, rfl, _, List.mem_cons_self, rfl⟩
  have hsub : HasSubscriber z ("/x".toList, 0) :=
    ⟨_, List.mem_cons_self, rfl, _, List.mem_cons_self, rfl⟩
  exact ⟨(htoRos2 x (by decide)).mpr ⟨hpub, z, by decide, by decide, hsub⟩,
    (hreasons x (by decide) z (by decide) (by decide)).2.mpr ⟨hpub, hsub⟩⟩

end Agnocast
