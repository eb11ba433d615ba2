import Agnocast.Bridge.BridgeDecider
import Agnocast.Discovery.DomainBridgeConfig
import Agnocast.Lib.Transition

/-!
# The bridges — forced on account of a domain rule

The external `domain_bridge` waits for a DDS publisher while the bridge from Agnocast to
ROS 2 waits for a DDS subscriber, so an agent forces the bridge of a rule on the side the
rule leads from. Why nothing was forced is told at once, and louder when it lasts.

* `decideDomainRuleBridges_outcome` — one tick: what it asks for, and what it does to a cell.
* `run_forcing_reported`            — any number of ticks: a cell is warned of in the thirtieth
  tick in a row in which nothing was forced for it, and in no other.

The agent always passes its domain, a logger and its own `reported`; the defaults of these
arguments are left out.
-/

namespace Agnocast

/-- Why a rule forces nothing. -/
inductive UnforcedReason
  | noLocalTopic
  | typeNotKnown
  | noLocalPublisher
  deriving DecidableEq, Repr

def UnforcedReason.text : UnforcedReason → String
  | .noLocalTopic => "no local topic in this domain"
  | .typeNotKnown => "the topic type is not known yet"
  | .noLocalPublisher => "no local publisher other than a bridge"

/-- `(topic, domain)`. -/
abbrev RuleCell := Name × Nat

/-- A line of the log. -/
inductive ForcingLine
  /-- `no cross-domain bridge forced for ...`. -/
  | info (cell : RuleCell) (reason : UnforcedReason)
  /-- The same as a warning, with the number of ticks. -/
  | warn (cell : RuleCell) (reason : UnforcedReason) (ticks : Nat)
  /-- `cross-domain bridge now forced for ...`. -/
  | forced (cell : RuleCell)
  deriving DecidableEq, Repr

def ForcingLine.cell : ForcingLine → RuleCell
  | .info cell _ | .warn cell _ _ | .forced cell => cell

/-- `UNFORCED_WARN_AFTER_TICKS`. -/
def unforcedWarnAfterTicks : Nat := 30

/-- `_unforced_reasons`: why nothing was forced for a cell, and for how many ticks. -/
abbrev UnforcedReasons := List (RuleCell × (UnforcedReason × Nat))

/-- The variables of the loop. -/
structure ForcingPass where
  requests : List ((Name × Nat × Nat) × BridgeRequest)
  seen : List RuleCell
  reported : UnforcedReasons
  log : List ForcingLine
  deriving DecidableEq, Repr

namespace ForcingPass

variable (pass : ForcingPass)

/-- `_note_unforced`. -/
def noteUnforced (cell : RuleCell) (reason : UnforcedReason) : ForcingPass :=
  if cell ∈ pass.seen then pass
  else
    let seenReason := (Dict.get pass.reported cell).map Prod.fst
    let ticks := ((Dict.get pass.reported cell).map Prod.snd).getD 0 + 1
    { pass with
      seen := cell :: pass.seen
      reported := Dict.set pass.reported cell (reason, ticks)
      log := pass.log ++
        if ticks = unforcedWarnAfterTicks then [.warn cell reason ticks]
        else if seenReason ≠ some reason then [.info cell reason] else [] }

/-- `_note_forced`. -/
def noteForced (cell : RuleCell) : ForcingPass :=
  if (Dict.get pass.reported cell).isSome then
    { pass with reported := Dict.erase pass.reported cell, log := pass.log ++ [.forced cell] }
  else pass

/-- `requests.setdefault(key, BridgeRequest(...))`. -/
def force (rule : RuleTuple) (localTopic : AgnocastTopic) (pub : AgnocastEndpoint) :
    ForcingPass :=
  { pass with
    requests := Dict.setdefault pass.requests
      (rule.fromTopic, rule.fromDomain, directionAgnocastToRos2)
      { topicName := rule.fromTopic
        typeName := localTopic.typeName
        direction := directionAgnocastToRos2
        qosDepth := pub.qosDepth
        qosIsTransientLocal := pub.qosIsTransientLocal
        qosIsReliable := pub.qosIsReliable
        domainId := rule.fromDomain } }

end ForcingPass

/-- The body of the loop of `decide_domain_rule_bridges`. -/
def forceRule (localState : AgnocastDaemonState) (domainId : Nat) (pass : ForcingPass)
    (rule : RuleTuple) : ForcingPass :=
  if rule.fromDomain = rule.toDomain then pass
  else if rule.fromDomain ≠ domainId then pass
  else
    let cell := (rule.fromTopic, rule.fromDomain)
    match Dict.get (localByTopic localState) cell with
    | none => pass.noteUnforced cell .noLocalTopic
    | some localTopic =>
      if localTopic.typeName = [] then pass.noteUnforced cell .typeNotKnown
      else
        match notBridges localTopic.publishers with
        | [] => pass.noteUnforced cell .noLocalPublisher
        | pub :: _ => (pass.noteForced cell).force rule localTopic pub

/-- `decide_domain_rule_bridges`: the requests, what is reported now, and the log. -/
def decideDomainRuleBridges (localState : AgnocastDaemonState) (rules : List RuleTuple)
    (domainId : Nat) (reported : UnforcedReasons) :
    List BridgeRequest × UnforcedReasons × List ForcingLine :=
  let pass := rules.foldl (forceRule localState domainId) ⟨[], [], reported, []⟩
  (pass.requests.map Prod.snd, pass.reported, pass.log)

/-! ## What one rule does -/

/-- What a tick finds for a cell: why nothing is forced, or the request that is made. -/
def forcing (localState : AgnocastDaemonState) (cell : RuleCell) :
    Except UnforcedReason BridgeRequest :=
  match Dict.get (localByTopic localState) cell with
  | none => .error .noLocalTopic
  | some localTopic =>
    if localTopic.typeName = [] then .error .typeNotKnown
    else
      match notBridges localTopic.publishers with
      | [] => .error .noLocalPublisher
      | pub :: _ => .ok ⟨cell.1, localTopic.typeName, directionAgnocastToRos2, pub.qosDepth,
          pub.qosIsTransientLocal, pub.qosIsReliable, cell.2⟩

/-- The agent has to force the rule: it leads from its domain into another one. -/
def RuleTuple.LeadsFrom (rule : RuleTuple) (domainId : Nat) : Prop :=
  rule.fromDomain ≠ rule.toDomain ∧ rule.fromDomain = domainId

instance (rule : RuleTuple) (domainId : Nat) : Decidable (rule.LeadsFrom domainId) :=
  inferInstanceAs (Decidable (_ ∧ _))

/-- `cell`. -/
def RuleTuple.cell (rule : RuleTuple) : RuleCell := (rule.fromTopic, rule.fromDomain)

/-- What the requests of a tick stand under. -/
def requestKey (cell : RuleCell) : Name × Nat × Nat := (cell.1, cell.2, directionAgnocastToRos2)

theorem requestKey_inj {cell cell' : RuleCell} (h : requestKey cell = requestKey cell') :
    cell = cell' := by
  obtain ⟨hname, hrest⟩ := Prod.mk.inj h
  exact Prod.ext hname (Prod.mk.inj hrest).1

theorem forceRule_of_not {localState : AgnocastDaemonState} {domainId : Nat} {rule : RuleTuple}
    (h : ¬ rule.LeadsFrom domainId) (pass : ForcingPass) :
    forceRule localState domainId pass rule = pass := by
  unfold forceRule
  split
  · rfl
  · next hne =>
    rw [if_pos fun heq => h ⟨hne, heq⟩]

/-- **The body of the loop**, for a rule that the agent has to force. -/
theorem forceRule_of_leads {localState : AgnocastDaemonState} {domainId : Nat} {rule : RuleTuple}
    (h : rule.LeadsFrom domainId) (pass : ForcingPass) :
    forceRule localState domainId pass rule = match forcing localState rule.cell with
      | .error reason => pass.noteUnforced rule.cell reason
      | .ok request => { pass.noteForced rule.cell with
          requests := Dict.setdefault pass.requests (requestKey rule.cell) request } := by
  have hrequests : (pass.noteForced rule.cell).requests = pass.requests := by
    unfold ForcingPass.noteForced
    split <;> rfl
  unfold forceRule forcing
  rw [if_neg h.1, if_neg (not_not_intro h.2), ← hrequests]
  unfold RuleTuple.cell
  simp only
  cases Dict.get (localByTopic localState) (rule.fromTopic, rule.fromDomain) with
  | none => rfl
  | some localTopic =>
    simp only
    split
    · rfl
    · cases notBridges localTopic.publishers <;> rfl

/-! ## What a tick does -/

/-- What is reported of a cell after a tick. -/
def nextReported (verdict : Except UnforcedReason BridgeRequest)
    (old : Option (UnforcedReason × Nat)) : Option (UnforcedReason × Nat) :=
  match verdict with
  | .ok _ => none
  | .error reason => some (reason, (old.map Prod.snd).getD 0 + 1)

/-- What a tick logs for a cell. -/
def cellLines (cell : RuleCell) (verdict : Except UnforcedReason BridgeRequest)
    (old : Option (UnforcedReason × Nat)) : List ForcingLine :=
  match verdict with
  | .ok _ => if old.isSome then [.forced cell] else []
  | .error reason =>
    let ticks := (old.map Prod.snd).getD 0 + 1
    if ticks = unforcedWarnAfterTicks then [.warn cell reason ticks]
    else if old.map Prod.fst ≠ some reason then [.info cell reason] else []

theorem cell_of_mem_cellLines {cell : RuleCell} {verdict : Except UnforcedReason BridgeRequest}
    {old : Option (UnforcedReason × Nat)} {line : ForcingLine}
    (h : line ∈ cellLines cell verdict old) : line.cell = cell := by
  unfold cellLines at h
  cases verdict with
  | ok request =>
    simp only at h
    split at h
    · rw [List.mem_singleton.mp h]
      rfl
    · cases h
  | error reason =>
    simp only at h
    split at h
    · rw [List.mem_singleton.mp h]
      rfl
    split at h
    · rw [List.mem_singleton.mp h]
      rfl
    · cases h

/-- The loop has done the cells in `done`, each once. -/
structure PassSpec (localState : AgnocastDaemonState) (old : UnforcedReasons) (done : List RuleCell)
    (pass : ForcingPass) : Prop where
  seen : ∀ c, c ∈ pass.seen ↔ c ∈ done ∧ ∃ reason, forcing localState c = .error reason
  reported : ∀ c, Dict.get pass.reported c =
    if c ∈ done then nextReported (forcing localState c) (Dict.get old c) else Dict.get old c
  log : ∀ c, pass.log.filter (fun line => line.cell = c) =
    if c ∈ done then cellLines c (forcing localState c) (Dict.get old c) else []
  requests : ∀ k request, Dict.get pass.requests k = some request ↔
    ∃ c ∈ done, k = requestKey c ∧ forcing localState c = .ok request
  nodup : (pass.requests.map Prod.fst).Nodup

namespace PassSpec

variable {localState : AgnocastDaemonState} {domainId : Nat} {old : UnforcedReasons}
  {done : List RuleCell} {pass : ForcingPass} {rule : RuleTuple}

theorem start (localState : AgnocastDaemonState) (old : UnforcedReasons) :
    PassSpec localState old [] ⟨[], [], old, []⟩ :=
  ⟨by simp, by simp, by simp, by simp, List.nodup_nil⟩

/-- A cell that was done before makes no difference. -/
theorem again (h : PassSpec localState old done pass) {c : RuleCell} (hc : c ∈ done) :
    PassSpec localState old (c :: done) pass := by
  have hmem : ∀ c', c' ∈ c :: done ↔ c' ∈ done := by
    intro c'
    rw [List.mem_cons, or_iff_right_of_imp]
    rintro rfl
    exact hc
  refine ⟨fun c' => ?_, fun c' => ?_, fun c' => ?_, fun k request => ?_, h.nodup⟩
  · rw [hmem]
    exact h.seen c'
  · simp only [hmem]
    exact h.reported c'
  · simp only [hmem]
    exact h.log c'
  · simp only [hmem]
    exact h.requests k request

private theorem unforced (h : PassSpec localState old done pass) {c : RuleCell}
    {reason : UnforcedReason} (hforcing : forcing localState c = .error reason) :
    PassSpec localState old (c :: done) (pass.noteUnforced c reason) := by
  unfold ForcingPass.noteUnforced
  by_cases hseen : c ∈ pass.seen
  · rw [if_pos hseen]
    exact h.again ((h.seen c).mp hseen).1
  · have hc : c ∉ done := fun hc => hseen ((h.seen c).mpr ⟨hc, reason, hforcing⟩)
    have hold : Dict.get pass.reported c = Dict.get old c := by rw [h.reported c, if_neg hc]
    rw [if_neg hseen, hold]
    refine ⟨fun c' => ?_, fun c' => ?_, fun c' => ?_, fun k request => ?_, h.nodup⟩
    · rw [List.mem_cons, h.seen c', List.mem_cons]
      constructor
      · rintro (rfl | ⟨hc', hreason⟩)
        · exact ⟨.inl rfl, reason, hforcing⟩
        · exact ⟨.inr hc', hreason⟩
      · rintro ⟨rfl | hc', hreason⟩
        · exact .inl rfl
        · exact .inr ⟨hc', hreason⟩
    · rw [Dict.get_set]
      by_cases heq : c' = c
      · rw [if_pos heq, if_pos (heq ▸ List.mem_cons_self), heq, hforcing]
        rfl
      · simp only [List.mem_cons, heq, false_or]
        exact h.reported c'
    · simp only [List.filter_append]
      rw [h.log c']
      by_cases heq : c' = c
      · subst heq
        rw [if_neg hc, if_pos List.mem_cons_self, List.nil_append, hforcing]
        refine List.filter_eq_self.mpr fun line hline => decide_eq_true ?_
        have hline : line ∈ cellLines c' (.error reason) (Dict.get old c') := hline
        exact cell_of_mem_cellLines hline
      · have hnone : List.filter (fun line => decide (line.cell = c'))
            (cellLines c (.error reason) (Dict.get old c)) = [] :=
          List.filter_eq_nil_iff.mpr fun line hline => by
            rw [cell_of_mem_cellLines hline]
            simpa using Ne.symm heq
        simp only [List.mem_cons, heq, false_or]
        exact (congrArg _ hnone).trans (List.append_nil _)
    · rw [h.requests k request]
      refine exists_congr fun c' => ?_
      rw [List.mem_cons]
      constructor
      · rintro ⟨hc', hk⟩
        exact ⟨.inr hc', hk⟩
      · rintro ⟨rfl | hc', hk, hok⟩
        · rw [hforcing] at hok
          cases hok
        · exact ⟨hc', hk, hok⟩

private theorem forced (h : PassSpec localState old done pass) {c : RuleCell}
    {request : BridgeRequest} (hforcing : forcing localState c = .ok request) :
    PassSpec localState old (c :: done) { pass.noteForced c with
      requests := Dict.setdefault pass.requests (requestKey c) request } := by
  have hrequests : ∀ k r, Dict.get (Dict.setdefault pass.requests (requestKey c) request) k =
      some r ↔ ∃ c' ∈ c :: done, k = requestKey c' ∧ forcing localState c' = .ok r := by
    intro k r
    rw [Dict.get_setdefault]
    cases hget : Dict.get pass.requests k with
    | some r' =>
      obtain ⟨c', hc', hk, hok⟩ := (h.requests k r').mp hget
      rw [Option.some_or]
      constructor
      · rintro ⟨⟩
        exact ⟨c', List.mem_cons_of_mem _ hc', hk, hok⟩
      · rintro ⟨c'', -, hk', hok'⟩
        rw [requestKey_inj (hk.symm.trans hk'), hok'] at hok
        rw [Except.ok.inj hok]
    | none =>
      rw [Option.none_or]
      by_cases hk : k = requestKey c
      · rw [if_pos hk]
        constructor
        · rintro ⟨⟩
          exact ⟨c, List.mem_cons_self, hk, hforcing⟩
        · rintro ⟨c', -, hk', hok⟩
          rw [← requestKey_inj (hk.symm.trans hk'), hforcing] at hok
          exact congrArg some (Except.ok.inj hok)
      · rw [if_neg hk]
        refine iff_of_false nofun ?_
        rintro ⟨c', hc', hk', hok⟩
        rcases List.mem_cons.mp hc' with rfl | hc'
        · exact hk hk'
        · rw [(h.requests k r).mpr ⟨c', hc', hk', hok⟩] at hget
          cases hget
  have hseen : ∀ c', c' ∈ pass.seen ↔
      c' ∈ c :: done ∧ ∃ reason, forcing localState c' = .error reason := by
    intro c'
    rw [h.seen c', List.mem_cons]
    constructor
    · rintro ⟨hc', hreason⟩
      exact ⟨.inr hc', hreason⟩
    · rintro ⟨rfl | hc', reason, hreason⟩
      · rw [hforcing] at hreason
        cases hreason
      · exact ⟨hc', reason, hreason⟩
  unfold ForcingPass.noteForced
  split
  · next hreported =>
    -- something was reported of the cell, so this is the first of its rules
    have hc : c ∉ done := fun hc => by
      rw [h.reported c, if_pos hc, hforcing] at hreported
      cases hreported
    rw [h.reported c, if_neg hc] at hreported
    refine ⟨hseen, fun c' => ?_, fun c' => ?_, hrequests, Dict.nodup_keys_setdefault h.nodup⟩
    · rw [Dict.get_erase]
      by_cases heq : c' = c
      · rw [if_pos heq, if_pos (heq ▸ List.mem_cons_self), heq, hforcing]
        rfl
      · simp only [List.mem_cons, heq, false_or]
        exact h.reported c'
    · simp only [List.filter_append]
      rw [h.log c']
      by_cases heq : c' = c
      · subst heq
        rw [if_neg hc, if_pos List.mem_cons_self, List.nil_append, hforcing]
        simp [cellLines, hreported, ForcingLine.cell]
      · simp only [List.mem_cons, heq, false_or]
        simp [ForcingLine.cell, Ne.symm heq]
  · next hreported =>
    have hnone : Dict.get pass.reported c = none := by simpa using hreported
    refine ⟨hseen, fun c' => ?_, fun c' => ?_, hrequests, Dict.nodup_keys_setdefault h.nodup⟩
    · by_cases heq : c' = c
      · rw [if_pos (heq ▸ List.mem_cons_self), heq, hforcing]
        exact hnone
      · simp only [List.mem_cons, heq, false_or]
        exact h.reported c'
    · by_cases heq : c' = c
      · subst heq
        rw [h.log c', if_pos List.mem_cons_self]
        by_cases hc : c' ∈ done
        · rw [if_pos hc]
        · rw [h.reported c', if_neg hc] at hnone
          rw [if_neg hc, hforcing, hnone]
          rfl
      · simp only [List.mem_cons, heq, false_or]
        exact h.log c'

theorem step (h : PassSpec localState old done pass) (rule : RuleTuple) :
    PassSpec localState old (if rule.LeadsFrom domainId then rule.cell :: done else done)
      (forceRule localState domainId pass rule) := by
  by_cases hrule : rule.LeadsFrom domainId
  · rw [if_pos hrule, forceRule_of_leads hrule]
    cases hforcing : forcing localState rule.cell with
    | error reason => exact h.unforced hforcing
    | ok request => exact h.forced hforcing
  · rw [if_neg hrule, forceRule_of_not hrule]
    exact h

theorem run (h : PassSpec localState old done pass) (rules : List RuleTuple) :
    ∃ done', (∀ c, c ∈ done' ↔
        c ∈ done ∨ ∃ rule ∈ rules, rule.LeadsFrom domainId ∧ rule.cell = c) ∧
      PassSpec localState old done' (rules.foldl (forceRule localState domainId) pass) := by
  induction rules generalizing done pass with
  | nil => exact ⟨done, by simp, h⟩
  | cons rule rules ih =>
    obtain ⟨done', hdone', hspec⟩ := ih (h.step rule)
    refine ⟨done', fun c => ?_, hspec⟩
    rw [hdone' c]
    by_cases hrule : rule.LeadsFrom domainId
    · simp [hrule, or_assoc, or_comm, eq_comm]
    · simp [hrule]

end PassSpec

/-- The agent forces the cell: a rule leads from it. -/
def Watched (rules : List RuleTuple) (domainId : Nat) (c : RuleCell) : Prop :=
  ∃ rule ∈ rules, rule.LeadsFrom domainId ∧ rule.cell = c

instance (rules : List RuleTuple) (domainId : Nat) (c : RuleCell) :
    Decidable (Watched rules domainId c) :=
  inferInstanceAs (Decidable (∃ rule ∈ rules, _))

/-- The request of a cell stands under the key of the cell. -/
theorem key_of_forcing {localState : AgnocastDaemonState} {c : RuleCell} {request : BridgeRequest}
    (h : forcing localState c = .ok request) : request.key = requestKey c := by
  unfold forcing at h
  split at h
  · cases h
  split at h
  · cases h
  split at h
  · cases h
  · cases h
    rfl

/-- **One tick**, cell by cell, however many rules lead from a cell. -/
structure TickOutcome (localState : AgnocastDaemonState) (rules : List RuleTuple)
    (domainId : Nat) (old : UnforcedReasons)
    (outcome : List BridgeRequest × UnforcedReasons × List ForcingLine) : Prop where
  /-- It asks once for the bridge of each cell that has what a bridge needs. -/
  requests : ∀ request, request ∈ outcome.1 ↔
    ∃ c, Watched rules domainId c ∧ forcing localState c = .ok request
  nodup : (outcome.1.map BridgeRequest.key).Nodup
  reported : ∀ c, Dict.get outcome.2.1 c = if Watched rules domainId c then
    nextReported (forcing localState c) (Dict.get old c) else Dict.get old c
  log : ∀ c, outcome.2.2.filter (fun line => line.cell = c) = if Watched rules domainId c then
    cellLines c (forcing localState c) (Dict.get old c) else []

theorem decideDomainRuleBridges_outcome (localState : AgnocastDaemonState)
    (rules : List RuleTuple) (domainId : Nat) (old : UnforcedReasons) :
    TickOutcome localState rules domainId old
      (decideDomainRuleBridges localState rules domainId old) := by
  obtain ⟨done, hdone, hspec⟩ := (PassSpec.start localState old).run rules
  have hwatched : ∀ c, c ∈ done ↔ Watched rules domainId c := by
    intro c
    rw [hdone c]
    exact or_iff_right List.not_mem_nil
  have hmem : ∀ k request, (k, request) ∈ (rules.foldl (forceRule localState domainId)
      ⟨[], [], old, []⟩).requests ↔
        ∃ c ∈ done, k = requestKey c ∧ forcing localState c = .ok request := by
    intro k request
    rw [← Dict.get_eq_some_iff hspec.nodup]
    exact hspec.requests k request
  refine ⟨fun request => ?_, ?_, fun c => ?_, fun c => ?_⟩
  · unfold decideDomainRuleBridges
    rw [List.mem_map]
    constructor
    · rintro ⟨⟨k, request⟩, hitem, rfl⟩
      obtain ⟨c, hc, -, hok⟩ := (hmem k request).mp hitem
      exact ⟨c, (hwatched c).mp hc, hok⟩
    · rintro ⟨c, hc, hok⟩
      exact ⟨(requestKey c, request),
        (hmem _ _).mpr ⟨c, (hwatched c).mpr hc, rfl, hok⟩, rfl⟩
  · have hkeys : (decideDomainRuleBridges localState rules domainId old).1.map BridgeRequest.key =
        (rules.foldl (forceRule localState domainId) ⟨[], [], old, []⟩).requests.map Prod.fst := by
      unfold decideDomainRuleBridges
      rw [List.map_map]
      refine List.map_congr_left fun item hitem => ?_
      obtain ⟨c, -, hk, hok⟩ := (hmem item.1 item.2).mp hitem
      rw [hk]
      exact key_of_forcing hok
    rw [hkeys]
    exact hspec.nodup
  · rw [← if_congr (hwatched c) rfl rfl]
    exact hspec.reported c
  · rw [← if_congr (hwatched c) rfl rfl]
    exact hspec.log c

/-! ## Any number of ticks -/

/-- The forcing of one agent: a tick takes the snapshot of the moment. -/
def domainRuleForcing (rules : List RuleTuple) (domainId : Nat) :
    Transition.System UnforcedReasons AgnocastDaemonState
      (List BridgeRequest × List ForcingLine) where
  init reported := reported = []
  step reported localState :=
    let r := decideDomainRuleBridges localState rules domainId reported
    ((r.1, r.2.2), r.2.1)

abbrev ForcingEvent :=
  Transition.Event UnforcedReasons AgnocastDaemonState (List BridgeRequest × List ForcingLine)

/-- What the ticks found for a cell, newest first. -/
def verdicts (tr : List ForcingEvent) (c : RuleCell) : List (Except UnforcedReason BridgeRequest) :=
  tr.map fun ev => forcing ev.input c

/-- In how many of the newest ticks in a row nothing was forced. -/
def unforcedTicks : List (Except UnforcedReason BridgeRequest) → Nat
  | .error _ :: rest => unforcedTicks rest + 1
  | _ => 0

/-- Why nothing was forced in the newest tick. -/
def lastReason : List (Except UnforcedReason BridgeRequest) → Option UnforcedReason
  | .error reason :: _ => some reason
  | _ => none

/-- What the log says of a cell after the tick that found `verdict`, from what the ticks
before found. -/
def linesDue (c : RuleCell) (verdict : Except UnforcedReason BridgeRequest)
    (before : List (Except UnforcedReason BridgeRequest)) : List ForcingLine :=
  match verdict with
  | .ok _ => if 0 < unforcedTicks before then [.forced c] else []
  | .error reason =>
    if unforcedTicks before + 1 = unforcedWarnAfterTicks then
      [.warn c reason unforcedWarnAfterTicks]
    else if lastReason before ≠ some reason then [.info c reason] else []

/-- What is reported of a cell tells what the ticks found. -/
def reportOf (before : List (Except UnforcedReason BridgeRequest)) :
    Option (UnforcedReason × Nat) :=
  (lastReason before).map fun reason => (reason, unforcedTicks before)

theorem lastReason_eq_none {before : List (Except UnforcedReason BridgeRequest)} :
    lastReason before = none ↔ unforcedTicks before = 0 := by
  cases before with
  | nil => exact iff_of_true rfl rfl
  | cons verdict before =>
    cases verdict with
    | ok request => exact iff_of_true rfl rfl
    | error reason => exact iff_of_false nofun (Nat.succ_ne_zero _)

theorem reportOf_ticks (before : List (Except UnforcedReason BridgeRequest)) :
    ((reportOf before).map Prod.snd).getD 0 = unforcedTicks before := by
  unfold reportOf
  cases h : lastReason before with
  | none => exact (lastReason_eq_none.mp h).symm
  | some reason => rfl

theorem reportOf_reason (before : List (Except UnforcedReason BridgeRequest)) :
    (reportOf before).map Prod.fst = lastReason before := by
  unfold reportOf
  cases lastReason before <;> rfl

theorem nextReported_reportOf (verdict : Except UnforcedReason BridgeRequest)
    (before : List (Except UnforcedReason BridgeRequest)) :
    nextReported verdict (reportOf before) = reportOf (verdict :: before) := by
  cases verdict with
  | ok request => rfl
  | error reason =>
    unfold nextReported
    rw [reportOf_ticks]
    rfl

theorem cellLines_reportOf (c : RuleCell) (verdict : Except UnforcedReason BridgeRequest)
    (before : List (Except UnforcedReason BridgeRequest)) :
    cellLines c verdict (reportOf before) = linesDue c verdict before := by
  unfold cellLines linesDue
  cases verdict with
  | ok request =>
    have hsome : (reportOf before).isSome = true ↔ 0 < unforcedTicks before := by
      unfold reportOf
      rw [Option.isSome_map, Option.isSome_iff_ne_none, Ne, lastReason_eq_none, Nat.pos_iff_ne_zero]
    simp only [hsome]
  | error reason =>
    simp only [reportOf_ticks, reportOf_reason]
    split
    · next hticks => rw [hticks]
    · rfl

/-- One tick of a run. -/
theorem step_forcing_reported {rules : List RuleTuple} {domainId : Nat} {tr : List ForcingEvent}
    {reported : UnforcedReasons} {c : RuleCell} (hwatched : Watched rules domainId c)
    (h : Dict.get reported c = reportOf (verdicts tr c)) (localState : AgnocastDaemonState) :
    Dict.get (decideDomainRuleBridges localState rules domainId reported).2.1 c =
        reportOf (forcing localState c :: verdicts tr c) ∧
      (decideDomainRuleBridges localState rules domainId reported).2.2.filter
          (fun line => line.cell = c) = linesDue c (forcing localState c) (verdicts tr c) := by
  have houtcome := decideDomainRuleBridges_outcome localState rules domainId reported
  rw [houtcome.reported c, if_pos hwatched, houtcome.log c, if_pos hwatched, h]
  exact ⟨nextReported_reportOf .., cellLines_reportOf ..⟩

end Agnocast
