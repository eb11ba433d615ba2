import Std.Data.String.ToInt
import Agnocast.Lib.Separator
import Agnocast.Kmod.System

/-!
# Services — the name of a response topic

A client subscribes to a topic of its own for the responses. Its name is made of the
service's name, the name of the client's node and the id that the kernel module gave the
client's request publisher, with `_SEP_` between the parts. The separator is made of
characters that ROS 2 names may contain, so the parts cannot always be read back.

* `createServiceResponseTopicName` — the name, of `agnocast_utils.cpp`.
* `Shifted`                        — one client's service name contains the separator, and
  what follows it there starts the other client's node name.
* `response_topics_differ_iff`     — two different clients have different response topics
  exactly when their ids differ or neither is shifted against the other.
* `shifted_clients_share_topic`    — two clients of one domain with the same topic.
-/

namespace Agnocast

/-! ## Names -/

/-- A fully qualified ROS 2 name: tokens of letters, digits and underscores, a single slash
before each. -/
def isFullyQualified : Name → Bool
  | '/' :: rest => (rest.splitOn '/').all fun token =>
      !token.isEmpty && token.all fun c => c.isAlphanum || c = '_'
  | _ => false

/-- `std::to_string`. -/
def toStdString (n : Int) : Name := n.repr.toList

/-- The separator between the parts of a response topic's name. -/
def sep : Name := "_SEP_".toList

/-- `create_service_request_topic_name`. -/
def createServiceRequestTopicName (serviceName : Name) : Name :=
  "/AGNOCAST_SRV_REQUEST".toList ++ serviceName

/-- `create_service_response_topic_name`. -/
def createServiceResponseTopicName (serviceName clientNodeName : Name) (clientPublisherId : Int) :
    Name :=
  "/AGNOCAST_SRV_RESPONSE".toList ++ serviceName ++ sep ++ clientNodeName ++ sep ++
    toStdString clientPublisherId

/-- What `Client::constructor_impl` computes the response topic of a client from:
`service_name_`, `node_name_` and `publisher_->get_id()`. -/
structure ServiceClient where
  serviceName : Name
  nodeName : Name
  publisherId : Int
  service_valid : isFullyQualified serviceName = true
  node_valid : isFullyQualified nodeName = true

/-- `response_topic_name_`. -/
def ServiceClient.responseTopicName (c : ServiceClient) : Name :=
  createServiceResponseTopicName c.serviceName c.nodeName c.publisherId

/-- The service name of `c'` is that of `c`, a separator and some `x`; and the node of `c`
has the name `x`, a separator and the name of the node of `c'`. -/
def Shifted (c c' : ServiceClient) : Prop :=
  ∃ x, c'.serviceName = c.serviceName ++ sep ++ x ∧ c.nodeName = x ++ sep ++ c'.nodeName

/-! ## Reading the parts back -/

theorem eq_cons_of_isFullyQualified {n : Name} (h : isFullyQualified n = true) :
    ∃ rest, n = '/' :: rest := by
  unfold isFullyQualified at h
  split at h
  · exact ⟨_, rfl⟩
  · cases h

theorem toStdString_injective {n n' : Int} (h : toStdString n = toStdString n') : n = n' :=
  Int.repr_injective (String.toList_injective h)

theorem underscore_not_mem_toStdString (n : Int) : '_' ∉ toStdString n := by
  have hnat : ∀ m : Nat, '_' ∉ m.repr.toList := fun m hm => by
    rw [Nat.toList_repr] at hm
    exact absurd (Nat.isDigit_of_mem_toDigits (by decide) (by decide) hm) (by decide)
  unfold toStdString Int.repr
  cases n with
  | ofNat m => exact hnat m
  | negSucc m =>
    rw [String.toList_append, List.mem_append]
    exact fun h => h.elim (by decide) (hnat _)

/-- No proper end of the separator starts it again before a name: all but the one
underscore disagree with it at once, and a name starts with a slash. -/
private theorem sep_overlap {t y v v' : Name} (ht : t ≠ []) (hy : y ≠ []) (hs : sep = t ++ y) :
    y ++ '/' :: v ≠ sep ++ v' := by
  have hsep : sep = ['_', 'S', 'E', 'P', '_'] := rfl
  rw [hsep] at hs ⊢
  match t, ht, hs with
  | [_], _, hs => obtain ⟨-, rfl⟩ := List.cons.inj hs; simp
  | [_, _], _, hs => simp at hs; obtain ⟨-, -, rfl⟩ := hs; simp
  | [_, _, _], _, hs => simp at hs; obtain ⟨-, -, -, rfl⟩ := hs; simp
  | [_, _, _, _], _, hs => simp at hs; obtain ⟨-, -, -, -, rfl⟩ := hs; simp
  | _ :: _ :: _ :: _ :: _ :: t, _, hs => simp at hs; exact fun _ => hy hs.2.2.2.2.2.2

/-- The name determines the id, and the service and the node as one word. -/
theorem ServiceClient.responseTopicName_eq_iff {c c' : ServiceClient} :
    c.responseTopicName = c'.responseTopicName ↔ c.publisherId = c'.publisherId ∧
      c.serviceName ++ (sep ++ c.nodeName) = c'.serviceName ++ (sep ++ c'.nodeName) := by
  have hsep : sep = "_SEP".toList ++ ['_'] := rfl
  constructor
  · intro h
    unfold responseTopicName createServiceResponseTopicName at h
    -- the last separator ends in the last underscore of the name
    have hword : ("/AGNOCAST_SRV_RESPONSE".toList ++
          (c.serviceName ++ (sep ++ (c.nodeName ++ "_SEP".toList)))) ++
          '_' :: toStdString c.publisherId =
        ("/AGNOCAST_SRV_RESPONSE".toList ++
          (c'.serviceName ++ (sep ++ (c'.nodeName ++ "_SEP".toList)))) ++
          '_' :: toStdString c'.publisherId := by
      simpa [hsep] using h
    have hlast := Separator.eq_of_append_cons_eq (underscore_not_mem_toStdString c.publisherId)
      (underscore_not_mem_toStdString c'.publisherId) hword
    refine ⟨toStdString_injective hlast.2, ?_⟩
    have hparts := List.append_cancel_left hlast.1
    simp only [← List.append_assoc] at hparts ⊢
    exact List.append_cancel_right hparts
  · rintro ⟨hid, hparts⟩
    unfold responseTopicName createServiceResponseTopicName
    simp only [List.append_assoc, hid]
    rw [← List.append_assoc sep, ← List.append_assoc c.serviceName, hparts]
    simp only [List.append_assoc]

/-- The same word from two services and nodes: both are equal, or one is shifted. -/
private theorem shifted_of_append_eq {c c' : ServiceClient}
    (h : c.serviceName ++ (sep ++ c.nodeName) = c'.serviceName ++ (sep ++ c'.nodeName))
    (hle : c.serviceName.length ≤ c'.serviceName.length) :
    (c.serviceName = c'.serviceName ∧ c.nodeName = c'.nodeName) ∨ Shifted c c' := by
  rcases Separator.split_cases h hle with ⟨hs, hn⟩ | ⟨x, hs, hn⟩ | ⟨t, y, ht, hy, hsep, _, hn⟩
  · exact .inl ⟨hs.symm, hn⟩
  · exact .inr ⟨x, hs, hn⟩
  · obtain ⟨rest, hrest⟩ := eq_cons_of_isFullyQualified c.node_valid
    rw [hrest] at hn
    exact absurd hn (sep_overlap ht hy hsep)

theorem Shifted.append_eq {c c' : ServiceClient} (h : Shifted c c') :
    c.serviceName ++ (sep ++ c.nodeName) = c'.serviceName ++ (sep ++ c'.nodeName) := by
  obtain ⟨x, hs, hn⟩ := h
  rw [hs, hn]
  simp only [List.append_assoc]

/-- **Response topics are private up to a shift.** Two clients that differ in service, node or
id have different response topics exactly when their ids differ or neither is shifted
against the other. -/
theorem response_topics_differ_iff (c c' : ServiceClient)
    (hne : c.serviceName ≠ c'.serviceName ∨ c.nodeName ≠ c'.nodeName ∨
      c.publisherId ≠ c'.publisherId) :
    c.responseTopicName ≠ c'.responseTopicName ↔
      ¬ (c.publisherId = c'.publisherId ∧ (Shifted c c' ∨ Shifted c' c)) := by
  rw [ne_eq, ServiceClient.responseTopicName_eq_iff]
  refine not_congr ⟨fun ⟨hid, h⟩ => ⟨hid, ?_⟩, fun ⟨hid, h⟩ => ⟨hid, ?_⟩⟩
  · have hnames : ¬ (c.serviceName = c'.serviceName ∧ c.nodeName = c'.nodeName) :=
      fun heq => hne.elim (· heq.1) (·.elim (· heq.2) (· hid))
    rcases Nat.le_total c.serviceName.length c'.serviceName.length with hle | hle
    · exact .inl ((shifted_of_append_eq h hle).resolve_left hnames)
    · exact .inr ((shifted_of_append_eq h.symm hle).resolve_left
        fun heq => hnames ⟨heq.1.symm, heq.2.symm⟩)
  · exact h.elim Shifted.append_eq fun h => h.append_eq.symm

/-- Two clients of one service, in nodes of different names. -/
theorem response_topics_differ_of_two_nodes :
    createServiceResponseTopicName "/add".toList "/left".toList 0 ≠
      createServiceResponseTopicName "/add".toList "/right".toList 0 :=
  (response_topics_differ_iff ⟨"/add".toList, "/left".toList, 0, by decide, by decide⟩
    ⟨"/add".toList, "/right".toList, 0, by decide, by decide⟩ (.inr (.inl (by decide)))).mpr (by
      rintro ⟨-, ⟨x, hx, -⟩ | ⟨x, hx, -⟩⟩ <;>
      · have hlen := congrArg List.length hx
        simp [sep] at hlen)

/-- **What the separator does not keep apart**: `/b_SEP_/c` as a client of `/a`, and `/c` as a
client of `/a_SEP_/b`. The kernel module gives both request publishers the id 0, in one
domain, and both clients subscribe to one response topic. -/
theorem shifted_clients_share_topic : ∃ c c' : ServiceClient,
    c.serviceName ≠ c'.serviceName ∧ c.nodeName ≠ c'.nodeName ∧
    (((runOf 3 [.addProcess 1 0 0 7, .addProcess 2 0 0 7,
      .addPublisher (createServiceRequestTopicName c.serviceName) 0 ⟨c.nodeName, 1, 1, false, false⟩,
      .addPublisher (createServiceRequestTopicName c'.serviceName) 0
        ⟨c'.nodeName, 2, 1, false, false⟩]).1.map Transition.Event.output).take 2 =
      [.endpointAdded (.ok c'.publisherId), .endpointAdded (.ok c.publisherId)]) ∧
    c.responseTopicName = c'.responseTopicName :=
  ⟨⟨"/a".toList, "/b_SEP_/c".toList, 0, by decide, by decide⟩,
    ⟨"/a_SEP_/b".toList, "/c".toList, 0, by decide, by decide⟩, by decide, by decide, rfl, by decide⟩

end Agnocast
