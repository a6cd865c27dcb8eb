import Lineage.Proofs.Ids
import Lineage.Session.CellTable

/-!
# What the vertex of a message is annotated with

A message is well formed (`Telemetry.Message.WellFormed`) if its payload has the form that goes with
the type of the entity and the attributes of that form. Every message that is read from a line is.
The keys under which a well-formed message is annotated are pairwise different, whatever its kind,
so nothing that is noted replaces anything else: looking up a key in the vertex is looking it up in
what the message says (`Telemetry.Message.get?_node`).

So an entity with a state is about the cell that its message names (`Telemetry.Message.cell?`), and
its vertex has a value: nothing is missing that the table of cells asks for.
-/

namespace Lineage

open Lineage.Graph Session Telemetry

namespace Telemetry

/-! ### Well-formed messages -/

/-- What is mapped was there before. -/
theorem exists_of_map_eq_ok {ε α β : Type} {f : α → β} {x : Except ε α} {b : β}
    (h : x.map f = .ok b) : ∃ a, x = .ok a ∧ f a = b := by
  cases x with
  | error e => exact absurd h (by simp [Except.map])
  | ok a => exact ⟨a, rfl, Except.ok.inj h⟩

/-- Whether the payload of a message is one of the form that goes with the type of its entity. -/
def Message.WellFormed : Message → Prop
  | .entity _ entityType _ payload =>
    payload.form = (EntityKind.ofTag entityType).form ∧
      payload.attributes.map (·.1) = payload.form.attributes.map Attribute.key
  | _ => True

/-- Only an entity can be ill formed. -/
theorem Message.wellFormed_of_ne_entity {message : Message} (h : message.event ≠ .entity) :
    message.WellFormed := by
  cases message with
  | agent header agentType => trivial
  | activity header activityType => trivial
  | entity header entityType operation payload => exact absurd rfl h

/-- A payload that is read has the form asked for, and its attributes. -/
theorem Payload.form_of_read {form : PayloadForm} {raw : String} {payload : Payload}
    (h : Payload.read form raw = .ok payload) :
    payload.form = form ∧ payload.attributes.map (·.1) = form.attributes.map Attribute.key := by
  -- A payload is read only if it has its brackets, and as many attributes as the form, with the
  -- keys of the form.
  simp only [Payload.read] at h
  split at h
  · exact absurd h (by simp)
  · split at h
    next inside _ =>
      simp only [Payload.ofInside] at h
      split at h
      · exact absurd h (by simp)
      · split at h
        · exact absurd h (by simp)
        · split at h
          · exact absurd h (by simp)
          · obtain rfl := Except.ok.inj h
            exact ⟨rfl, by simp⟩
    · exact absurd h (by simp)
  · exact absurd h (by simp)

/-- The payload is read in the form that the type asks for, so it has that form. -/
theorem Message.wellFormed_of_decodeEntity {header : Header} {entityType operation raw : String}
    {message : Message} (h : Message.decodeEntity header entityType operation raw = .ok message) :
    message.WellFormed := by
  simp only [Message.decodeEntity] at h
  split at h
  · exact absurd h (by simp)
  · split at h
    · exact absurd h (by simp)
    next payload hpayload =>
      obtain rfl := Except.ok.inj h
      -- What is left is the case in which the operation and the payload are read.
      obtain ⟨hform, hkeys⟩ := Payload.form_of_read hpayload
      exact ⟨hform, hform ▸ hkeys⟩

/-- The fields of other events make messages that have no payload. -/
theorem Message.wellFormed_of_decodeFields {event : EventKind} {fields : List String}
    {message : Message} (h : Message.decodeFields event fields = .ok message) :
    message.WellFormed := by
  unfold Message.decodeFields at h
  split at h
  · -- Only an entity has a payload to speak of.
    split at h
    · split at h
      · exact absurd h (by simp)
      · exact Message.wellFormed_of_decodeEntity h
    · exact absurd h (by simp)
    · obtain ⟨header, -, rfl⟩ := exists_of_map_eq_ok h
      trivial
    · obtain ⟨header, -, rfl⟩ := exists_of_map_eq_ok h
      trivial
  · exact absurd h (by simp)

/-- A message that is read from a line is well formed. -/
theorem Message.wellFormed_of_decode {raw : String} {message : Message}
    (h : Message.decode raw = .ok message) : message.WellFormed := by
  simp only [Message.decode] at h
  split at h
  · exact absurd h (by simp)
  · split at h
    · exact absurd h (by simp)
    · split at h
      · exact absurd h (by simp)
      · exact Message.wellFormed_of_decodeFields h

/-- A message that is read from bytes is well formed. -/
theorem Message.wellFormed_of_decodeBytes {raw : List UInt8} {message : Message}
    (h : Message.decodeBytes raw = .ok message) : message.WellFormed := by
  simp only [Message.decodeBytes] at h
  split at h
  · exact absurd h (by simp)
  · exact Message.wellFormed_of_decode h

/-! ### The annotations of a vertex -/

/-- What a message says about its vertex. -/
def Message.annotations (message : Message) : List (String × String) :=
  message.header.annotations ++ message.ownAnnotations

/-- The keys under which a well-formed message says something are pairwise different. -/
theorem Message.nodup_annotations {message : Message} (h : message.WellFormed) :
    (message.annotations.map (·.1)).Nodup := by
  cases message with
  -- The keys of each kind of message are known, up to those of the payload.
  | agent header agentType =>
    change [Key.name, Key.agentId, Key.timestamp, Key.agentType].Nodup
    decide
  | activity header activityType =>
    change [Key.name, Key.agentId, Key.timestamp, Key.activityType].Nodup
    decide
  | entity header entityType operation payload =>
    have hkeys : (Message.entity header entityType operation payload).annotations.map (·.1) =
        [Key.name, Key.agentId, Key.timestamp, Key.entityType, Key.operation] ++
          payload.form.attributes.map Attribute.key := by
      rw [← h.2]
      rfl
    rw [hkeys]
    cases payload.form <;> decide

/-- Looking up a key in the vertex of a well-formed message is looking it up in what the
message says. -/
theorem Message.get?_node {message : Message} (h : message.WellFormed) (index : Nat)
    (key : String) : (message.node index).get? key = message.annotations.lookup key := by
  have hinsert := Catalog.get?_insertAll .empty (Message.nodup_annotations h) key
  rw [Catalog.get?_empty, Option.or_none] at hinsert
  exact hinsert

/-- The vertex of a well-formed message carries the id of its device. -/
theorem Message.get?_node_agentId {message : Message} (h : message.WellFormed) (index : Nat) :
    (message.node index).get? Key.agentId = some message.header.agentId := by
  rw [Message.get?_node h]
  rfl

/-! ### The cell that a message is about -/

/-- The cell that a message tells the state of: the register of its name, on its device, at the
index in its payload. Only entities with a state have one. -/
def Message.cell? : Message → Option Cell
  | .entity header entityType _ payload =>
    if (EntityKind.ofTag entityType).isStateful then
      (payload.attributes.lookup Key.index).map fun index => ⟨header.name, header.agentId, index⟩
    else none
  | _ => none

/-- What was done to the entity of a message. -/
def Message.operation? : Message → Option Operation
  | .entity _ _ operation _ => some operation
  | _ => none

/-- The value that a message tells of its entity. -/
def Message.value? : Message → Option String
  | .entity _ _ _ payload => payload.attributes.lookup Key.value
  | _ => none

/-- A payload that goes with a state gives an index and a value, and nothing else. -/
theorem Message.attributes_of_isStateful {header : Header} {entityType : String}
    {operation : Operation} {payload : Payload}
    (h : (Message.entity header entityType operation payload).WellFormed)
    (hstate : (EntityKind.ofTag entityType).isStateful = true) :
    ∃ index value, payload.attributes = [(Key.index, index), (Key.value, value)] := by
  obtain ⟨hform, hkeys⟩ := h
  -- Of the forms only that of a register goes with a state.
  have hregister : payload.form = .register := by
    rw [hform]
    cases hkind : EntityKind.ofTag entityType <;> rw [hkind] at hstate <;>
      first | rfl | exact absurd hstate (by decide)
  rw [hregister] at hkeys
  obtain ⟨form, attributes⟩ := payload
  -- The form names two keys, so there are two attributes, in this order.
  match attributes, hkeys with
  | [(_, index), (_, value)], hkeys =>
    simp only [List.map_cons, List.map_nil, PayloadForm.attributes, List.cons.injEq, and_true]
      at hkeys
    obtain ⟨rfl, rfl⟩ := hkeys
    exact ⟨index, value, rfl⟩

/-- **No state is overlooked.** The vertex of a message about a state is about the cell that the
message names, and it has the value that the message tells. -/
theorem Message.node_of_isStateful {header : Header} {entityType : String} {operation : Operation}
    {payload : Payload} (h : (Message.entity header entityType operation payload).WellFormed)
    (hstate : (EntityKind.ofTag entityType).isStateful = true) (index : Nat) :
    ∃ cell value, (Message.entity header entityType operation payload).cell? = some cell ∧
      cell.agentId = header.agentId ∧
      Cell.ofNode? ((Message.entity header entityType operation payload).node index) = some cell ∧
      (Message.entity header entityType operation payload).value? = some value ∧
      ((Message.entity header entityType operation payload).node index).get? Key.value =
        some value := by
  obtain ⟨place, value, hattributes⟩ := Message.attributes_of_isStateful h hstate
  -- All that the vertex says; each part of the statement looks something up in it.
  have hget : ∀ key, ((Message.entity header entityType operation payload).node index).get? key =
      [(Key.name, header.name), (Key.agentId, header.agentId), (Key.timestamp, header.timestamp),
        (Key.entityType, entityType), (Key.operation, operation.tag), (Key.index, place),
        (Key.value, value)].lookup key := by
    intro key
    rw [Message.get?_node h, Message.annotations, Message.ownAnnotations, hattributes]
    rfl
  refine ⟨⟨header.name, header.agentId, place⟩, value, ?_, rfl, ?_, ?_, ?_⟩
  · simp only [Message.cell?, hstate, hattributes]
    rfl
  · -- The cell of the vertex is put together from what stands under three keys of it.
    simp only [Cell.ofNode?, hget]
    rfl
  · simp only [Message.value?, hattributes]
    rfl
  · rw [hget]
    rfl

end Telemetry

end Lineage
