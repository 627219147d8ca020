import DomainAI.Data.HostString
import DomainAI.Data.Models

/-!
# The codec of the history

The records of the history as they are serialised.  A property that equals its
default when it is encoded is left out, and takes its default when it is decoded;
the defaults of identifiers and times are evaluated afresh for every record.
-/

namespace DomainAI
namespace HistoryCodec

structure Message where
  id : HostString
  role : Role
  text : HostString
  route : Route
  sentPayloadPreview : Option HostString
  timestamp : Millis
  deriving DecidableEq, Repr

structure Conversation where
  id : HostString
  title : HostString
  messages : List Message
  updatedAt : Millis
  summary : Option HostString
  summarizedCount : Int
  deriving DecidableEq, Repr

/-- What the defaults of one record evaluate to. -/
structure Reading where
  randomUUID : HostString
  currentTimeMillis : Millis
  deriving DecidableEq, Repr

structure ConversationReading where
  own : Reading
  messages : Nat -> Reading

def newChat : HostString :=
  HostString.decodeToString "New chat".toList

/-!
# Documents
-/

inductive Key where
  | id
  | role
  | text
  | route
  | sentPayloadPreview
  | timestamp
  | title
  | messages
  | updatedAt
  | summary
  | summarizedCount
  deriving DecidableEq, Repr

inductive Json where
  | null
  | number (n : Int)
  | string (t : Text)
  | array (elements : List Json)
  | object (properties : List (Key × Json))

abbrev Properties := List (Key × Json)

section Property

variable {value : Type}

/-- A property with a default. -/
def optional [DecidableEq value] (k : Key) (encode : value -> Json)
    (default v : value) : Properties :=
  if v = default then [] else [(k, encode v)]

def required (k : Key) (encode : value -> Json) (v : value) : Properties :=
  [(k, encode v)]

def decodeOptional (k : Key) (decode : Json -> Option value) (default : value)
    (ps : Properties) : Option value :=
  match ps.lookup k with
  | none => some default
  | some j => decode j

def decodeRequired (k : Key) (decode : Json -> Option value)
    (ps : Properties) : Option value :=
  (ps.lookup k).bind decode

theorem lookup_optional [DecidableEq value] (k k' : Key) (encode : value -> Json)
    (default v : value) (ps : Properties) :
    (optional k encode default v ++ ps).lookup k' =
      if k' = k ∧ v ≠ default then some (encode v) else ps.lookup k' := by
  unfold optional
  by_cases hv : v = default
  · simp [hv]
  · by_cases hk : k' = k
    · simp [hv, hk]
    · have hne : (k' == k) = false := beq_eq_false_iff_ne.mpr hk
      simp [hv, hk, List.lookup_cons, hne]

theorem lookup_required (k k' : Key) (encode : value -> Json) (v : value)
    (ps : Properties) :
    (required k encode v ++ ps).lookup k' =
      if k' = k then some (encode v) else ps.lookup k' := by
  unfold required
  by_cases hk : k' = k
  · simp [hk]
  · have hne : (k' == k) = false := beq_eq_false_iff_ne.mpr hk
    simp [hk, List.lookup_cons, hne]

end Property

/-!
# Values
-/

def encodeLong (n : Int) : Json :=
  Json.number n

def decodeLong : Json -> Option Int
  | Json.number n => some n
  | _ => none

def encodeString (s : HostString) : Json :=
  Json.string (HostString.encodeToByteArray s)

def decodeString : Json -> Option HostString
  | Json.string t => some (HostString.decodeToString t)
  | _ => none

def encodeNullable : Option HostString -> Json
  | none => Json.null
  | some s => encodeString s

def decodeNullable : Json -> Option (Option HostString)
  | Json.null => some none
  | j => (decodeString j).map some

def encodeRole : Role -> Json
  | Role.USER => Json.string "USER".toList
  | Role.ORACLE => Json.string "ORACLE".toList

def decodeRole : Json -> Option Role
  | Json.string t =>
      if t = "USER".toList then some Role.USER
      else if t = "ORACLE".toList then some Role.ORACLE
      else none
  | _ => none

def encodeRoute : Route -> Json
  | Route.LOCAL => Json.string "LOCAL".toList
  | Route.CLOUD => Json.string "CLOUD".toList
  | Route.BLOCKED => Json.string "BLOCKED".toList

def decodeRoute : Json -> Option Route
  | Json.string t =>
      if t = "LOCAL".toList then some Route.LOCAL
      else if t = "CLOUD".toList then some Route.CLOUD
      else if t = "BLOCKED".toList then some Route.BLOCKED
      else none
  | _ => none

/-!
# Lists

Every element has readings of its own.
-/

section Lists

variable {reading record : Type}

def encodeEach (encode : reading -> record -> Json) :
    (Nat -> reading) -> List record -> List Json
  | _, [] => []
  | r, x :: xs => encode (r 0) x :: encodeEach encode (fun i => r (i + 1)) xs

def decodeEach (decode : reading -> Json -> Option record) :
    (Nat -> reading) -> List Json -> Option (List record)
  | _, [] => some []
  | r, j :: js =>
      (decode (r 0) j).bind fun x =>
        (decodeEach decode (fun i => r (i + 1)) js).map fun xs => x :: xs

def encodeList (encode : reading -> record -> Json) (r : Nat -> reading)
    (xs : List record) : Json :=
  Json.array (encodeEach encode r xs)

def decodeList (decode : reading -> Json -> Option record) (r : Nat -> reading) :
    Json -> Option (List record)
  | Json.array js => decodeEach decode r js
  | _ => none

theorem decodeList_encodeList {encode : reading -> record -> Json}
    {decode : reading -> Json -> Option record} (r r' : Nat -> reading)
    (xs : List record) :
    decodeList decode r' (encodeList encode r xs) = some xs <->
      forall i x, xs[i]? = some x ->
        decode (r' i) (encode (r i) x) = some x := by
  change decodeEach decode r' (encodeEach encode r xs) = some xs <-> _
  induction xs generalizing r r' with
  | nil => simp [encodeEach, decodeEach]
  | cons x xs ih =>
      have hrest := ih (fun i => r (i + 1)) (fun i => r' (i + 1))
      rw [encodeEach, decodeEach]
      constructor
      · intro h
        rcases Option.bind_eq_some_iff.mp h with ⟨y, hy, hmap⟩
        rcases Option.map_eq_some_iff.mp hmap with ⟨ys, hys, hcons⟩
        rcases List.cons.inj hcons with ⟨hyx, hysx⟩
        rw [hyx] at hy
        rw [hysx] at hys
        intro i z hz
        cases i with
        | zero =>
            cases hz
            exact hy
        | succ i => exact hrest.mp hys i z hz
      · intro h
        have hfirst := h 0 x rfl
        have hothers := hrest.mpr fun i z hz => h (i + 1) z hz
        rw [hfirst, Option.bind_some, hothers, Option.map_some]

end Lists

/-!
# Records
-/

def messageProperties (r : Reading) (m : Message) : Properties :=
  optional Key.id encodeString r.randomUUID m.id ++
  (required Key.role encodeRole m.role ++
  (required Key.text encodeString m.text ++
  (optional Key.route encodeRoute Route.LOCAL m.route ++
  (optional Key.sentPayloadPreview encodeNullable none m.sentPayloadPreview ++
  (optional Key.timestamp encodeLong r.currentTimeMillis m.timestamp ++ [])))))

def encodeMessage (r : Reading) (m : Message) : Json :=
  Json.object (messageProperties r m)

def decodeMessage (r : Reading) : Json -> Option Message
  | Json.object ps => do
      let id <- decodeOptional Key.id decodeString r.randomUUID ps
      let role <- decodeRequired Key.role decodeRole ps
      let text <- decodeRequired Key.text decodeString ps
      let route <- decodeOptional Key.route decodeRoute Route.LOCAL ps
      let sentPayloadPreview <-
        decodeOptional Key.sentPayloadPreview decodeNullable none ps
      let timestamp <-
        decodeOptional Key.timestamp decodeLong r.currentTimeMillis ps
      some { id, role, text, route, sentPayloadPreview, timestamp }
  | _ => none

def conversationProperties (r : ConversationReading) (c : Conversation) :
    Properties :=
  optional Key.id encodeString r.own.randomUUID c.id ++
  (optional Key.title encodeString newChat c.title ++
  (optional Key.messages (encodeList encodeMessage r.messages) [] c.messages ++
  (optional Key.updatedAt encodeLong r.own.currentTimeMillis c.updatedAt ++
  (optional Key.summary encodeNullable none c.summary ++
  (optional Key.summarizedCount encodeLong 0 c.summarizedCount ++ [])))))

def encodeConversation (r : ConversationReading) (c : Conversation) : Json :=
  Json.object (conversationProperties r c)

def decodeConversation (r : ConversationReading) : Json -> Option Conversation
  | Json.object ps => do
      let id <- decodeOptional Key.id decodeString r.own.randomUUID ps
      let title <- decodeOptional Key.title decodeString newChat ps
      let messages <-
        decodeOptional Key.messages (decodeList decodeMessage r.messages) [] ps
      let updatedAt <-
        decodeOptional Key.updatedAt decodeLong r.own.currentTimeMillis ps
      let summary <- decodeOptional Key.summary decodeNullable none ps
      let summarizedCount <- decodeOptional Key.summarizedCount decodeLong 0 ps
      some { id, title, messages, updatedAt, summary, summarizedCount }
  | _ => none

/-- `json.encodeToString`, as the bytes that are written. -/
def encode (r : Nat -> ConversationReading) (conversations : List Conversation) :
    Json :=
  encodeList encodeConversation r conversations

/-- `json.decodeFromString`. -/
def decode (r : Nat -> ConversationReading) (j : Json) :
    Option (List Conversation) :=
  decodeList decodeConversation r j

/-!
# What survives
-/

section Property

variable {value : Type}

/-- A property that is left out has the same default afterwards, and one that is
written can be read. -/
def Survives [DecidableEq value] (encode : value -> Json) (decode : Json -> Option value)
    (default default' v : value) : Prop :=
  if v = default then default' = v else decode (encode v) = some v

theorem decodeOptional_eq_some [DecidableEq value] {k : Key} {ps : Properties}
    {encode : value -> Json} {decode : Json -> Option value}
    {default default' v : value}
    (h : ps.lookup k = if v ≠ default then some (encode v) else none) :
    decodeOptional k decode default' ps = some v <->
      Survives encode decode default default' v := by
  unfold decodeOptional Survives
  rw [h]
  by_cases hv : v = default
  · simp [hv]
  · simp [hv]

theorem decodeRequired_eq_some {k : Key} {ps : Properties}
    {encode : value -> Json} {decode : Json -> Option value} {v : value}
    (h : ps.lookup k = some (encode v)) :
    decodeRequired k decode ps = some v <-> decode (encode v) = some v := by
  unfold decodeRequired
  rw [h, Option.bind_some]

end Property

theorem decodeLong_encodeLong (n : Int) : decodeLong (encodeLong n) = some n := rfl

theorem decodeRole_encodeRole (role : Role) :
    decodeRole (encodeRole role) = some role := by
  cases role <;> rfl

theorem decodeRoute_encodeRoute (route : Route) :
    decodeRoute (encodeRoute route) = some route := by
  cases route <;> rfl

theorem decodeString_encodeString (s : HostString) :
    decodeString (encodeString s) = some s <-> HostString.wellFormed s = true := by
  rw [← HostString.decodeToString_encodeToByteArray]
  exact Option.some_inj

theorem decodeNullable_encodeNullable (s : Option HostString) :
    decodeNullable (encodeNullable s) = some s <->
      forall t, s = some t -> HostString.wellFormed t = true := by
  cases s with
  | none => simp [encodeNullable, decodeNullable]
  | some t =>
      change (decodeString (encodeString t)).map some = some (some t) <-> _
      rw [Option.map_eq_some_iff]
      constructor
      · intro h t' ht'
        cases ht'
        rcases h with ⟨t', hdecoded, heq⟩
        rw [Option.some_inj.mp heq] at hdecoded
        exact (decodeString_encodeString t).mp hdecoded
      · intro h
        exact ⟨t, (decodeString_encodeString t).mpr (h t rfl), rfl⟩

theorem decodeNullable_none :
    decodeNullable (encodeNullable none) = some none := rfl

theorem decodeString_newChat : decodeString (encodeString newChat) = some newChat :=
  (decodeString_encodeString newChat).mpr (by decide)

structure Message.Kept (r r' : Reading) (m : Message) : Prop where
  id : if m.id = r.randomUUID then r'.randomUUID = m.id
    else HostString.wellFormed m.id = true
  text : HostString.wellFormed m.text = true
  sentPayloadPreview : forall t, m.sentPayloadPreview = some t ->
    HostString.wellFormed t = true
  timestamp : m.timestamp = r.currentTimeMillis ->
    r'.currentTimeMillis = m.timestamp

structure Conversation.Kept (r r' : ConversationReading) (c : Conversation) :
    Prop where
  id : if c.id = r.own.randomUUID then r'.own.randomUUID = c.id
    else HostString.wellFormed c.id = true
  title : HostString.wellFormed c.title = true
  messages : forall i m, c.messages[i]? = some m ->
    Message.Kept (r.messages i) (r'.messages i) m
  updatedAt : c.updatedAt = r.own.currentTimeMillis ->
    r'.own.currentTimeMillis = c.updatedAt
  summary : forall t, c.summary = some t -> HostString.wellFormed t = true

theorem decodeMessage_eq_some (r : Reading) (ps : Properties) (m : Message) :
    decodeMessage r (Json.object ps) = some m <->
      decodeOptional Key.id decodeString r.randomUUID ps = some m.id ∧
      decodeRequired Key.role decodeRole ps = some m.role ∧
      decodeRequired Key.text decodeString ps = some m.text ∧
      decodeOptional Key.route decodeRoute Route.LOCAL ps = some m.route ∧
      decodeOptional Key.sentPayloadPreview decodeNullable none ps =
        some m.sentPayloadPreview ∧
      decodeOptional Key.timestamp decodeLong r.currentTimeMillis ps =
        some m.timestamp := by
  simp only [decodeMessage, bind, Option.bind_eq_some_iff, Option.some_inj]
  constructor
  · intro h
    rcases h with ⟨_, hid, _, hrole, _, htext, _, hroute, _, hpreview, _, htime,
      hm⟩
    rw [← hm]
    exact ⟨hid, hrole, htext, hroute, hpreview, htime⟩
  · intro h
    rcases h with ⟨hid, hrole, htext, hroute, hpreview, htime⟩
    exact ⟨_, hid, _, hrole, _, htext, _, hroute, _, hpreview, _, htime, rfl⟩

theorem survives_string {default default' v : HostString} :
    Survives encodeString decodeString default default' v <->
      if v = default then default' = v else HostString.wellFormed v = true := by
  unfold Survives
  split
  · exact Iff.rfl
  · exact decodeString_encodeString v

theorem survives_time {default default' v : Millis} :
    Survives encodeLong decodeLong default default' v <->
      (v = default -> default' = v) := by
  unfold Survives
  split
  · rename_i hv
    exact ⟨fun h _ => h, fun h => h hv⟩
  · rename_i hv
    exact ⟨fun _ h => absurd h hv, fun _ => decodeLong_encodeLong v⟩

theorem survives_constant {value : Type} [DecidableEq value]
    {encode : value -> Json} {decode : Json -> Option value} {default v : value}
    (h : decode (encode default) = some default) :
    Survives encode decode default default v <->
      decode (encode v) = some v := by
  unfold Survives
  split
  · rename_i hv
    rw [hv]
    exact ⟨fun _ => h, fun _ => rfl⟩
  · exact Iff.rfl

theorem decodeMessage_encodeMessage (r r' : Reading) (m : Message) :
    decodeMessage r' (encodeMessage r m) = some m <-> Message.Kept r r' m := by
  have hid : decodeOptional Key.id decodeString r'.randomUUID
        (messageProperties r m) = some m.id <->
      Survives encodeString decodeString r.randomUUID r'.randomUUID m.id :=
    decodeOptional_eq_some (by
      simp [-List.append_nil, messageProperties, lookup_optional,
        lookup_required])
  have hrole : decodeRequired Key.role decodeRole (messageProperties r m) =
        some m.role <-> decodeRole (encodeRole m.role) = some m.role :=
    decodeRequired_eq_some (by
      simp [-List.append_nil, messageProperties, lookup_optional,
        lookup_required])
  have htext : decodeRequired Key.text decodeString (messageProperties r m) =
        some m.text <-> decodeString (encodeString m.text) = some m.text :=
    decodeRequired_eq_some (by
      simp [-List.append_nil, messageProperties, lookup_optional,
        lookup_required])
  have hroute : decodeOptional Key.route decodeRoute Route.LOCAL
        (messageProperties r m) = some m.route <->
      Survives encodeRoute decodeRoute Route.LOCAL Route.LOCAL m.route :=
    decodeOptional_eq_some (by
      simp [-List.append_nil, messageProperties, lookup_optional,
        lookup_required])
  have hpreview : decodeOptional Key.sentPayloadPreview decodeNullable none
        (messageProperties r m) = some m.sentPayloadPreview <->
      Survives encodeNullable decodeNullable none none m.sentPayloadPreview :=
    decodeOptional_eq_some (by
      simp [-List.append_nil, messageProperties, lookup_optional,
        lookup_required])
  have htime : decodeOptional Key.timestamp decodeLong r'.currentTimeMillis
        (messageProperties r m) = some m.timestamp <->
      Survives encodeLong decodeLong r.currentTimeMillis r'.currentTimeMillis
        m.timestamp :=
    decodeOptional_eq_some (by
      simp [-List.append_nil, messageProperties, lookup_optional,
        lookup_required])
  rw [encodeMessage, decodeMessage_eq_some, hid, hrole, htext, hroute, hpreview,
    htime, survives_string, survives_time, decodeString_encodeString,
    survives_constant (decodeRoute_encodeRoute Route.LOCAL),
    survives_constant decodeNullable_none, decodeNullable_encodeNullable]
  constructor
  · intro h
    rcases h with ⟨hid, _, htext, _, hpreview, htime⟩
    exact ⟨hid, htext, hpreview, htime⟩
  · intro h
    exact ⟨h.id, decodeRole_encodeRole m.role, h.text,
      decodeRoute_encodeRoute m.route, h.sentPayloadPreview, h.timestamp⟩

theorem decodeConversation_eq_some (r : ConversationReading) (ps : Properties)
    (c : Conversation) :
    decodeConversation r (Json.object ps) = some c <->
      decodeOptional Key.id decodeString r.own.randomUUID ps = some c.id ∧
      decodeOptional Key.title decodeString newChat ps = some c.title ∧
      decodeOptional Key.messages (decodeList decodeMessage r.messages) [] ps =
        some c.messages ∧
      decodeOptional Key.updatedAt decodeLong r.own.currentTimeMillis ps =
        some c.updatedAt ∧
      decodeOptional Key.summary decodeNullable none ps = some c.summary ∧
      decodeOptional Key.summarizedCount decodeLong 0 ps =
        some c.summarizedCount := by
  simp only [decodeConversation, bind, Option.bind_eq_some_iff, Option.some_inj]
  constructor
  · intro h
    rcases h with ⟨_, hid, _, htitle, _, hmessages, _, htime, _, hsummary, _,
      hcount, hc⟩
    rw [← hc]
    exact ⟨hid, htitle, hmessages, htime, hsummary, hcount⟩
  · intro h
    rcases h with ⟨hid, htitle, hmessages, htime, hsummary, hcount⟩
    exact ⟨_, hid, _, htitle, _, hmessages, _, htime, _, hsummary, _, hcount, rfl⟩

theorem decodeConversation_encodeConversation (r r' : ConversationReading)
    (c : Conversation) :
    decodeConversation r' (encodeConversation r c) = some c <->
      Conversation.Kept r r' c := by
  have hid : decodeOptional Key.id decodeString r'.own.randomUUID
        (conversationProperties r c) = some c.id <->
      Survives encodeString decodeString r.own.randomUUID r'.own.randomUUID
        c.id :=
    decodeOptional_eq_some (by
      simp [-List.append_nil, conversationProperties, lookup_optional])
  have htitle : decodeOptional Key.title decodeString newChat
        (conversationProperties r c) = some c.title <->
      Survives encodeString decodeString newChat newChat c.title :=
    decodeOptional_eq_some (by
      simp [-List.append_nil, conversationProperties, lookup_optional])
  have hmessages : decodeOptional Key.messages
        (decodeList decodeMessage r'.messages) []
        (conversationProperties r c) = some c.messages <->
      Survives (encodeList encodeMessage r.messages)
        (decodeList decodeMessage r'.messages) [] [] c.messages :=
    decodeOptional_eq_some (by
      simp [-List.append_nil, conversationProperties, lookup_optional])
  have htime : decodeOptional Key.updatedAt decodeLong r'.own.currentTimeMillis
        (conversationProperties r c) = some c.updatedAt <->
      Survives encodeLong decodeLong r.own.currentTimeMillis
        r'.own.currentTimeMillis c.updatedAt :=
    decodeOptional_eq_some (by
      simp [-List.append_nil, conversationProperties, lookup_optional])
  have hsummary : decodeOptional Key.summary decodeNullable none
        (conversationProperties r c) = some c.summary <->
      Survives encodeNullable decodeNullable none none c.summary :=
    decodeOptional_eq_some (by
      simp [-List.append_nil, conversationProperties, lookup_optional])
  have hcount : decodeOptional Key.summarizedCount decodeLong 0
        (conversationProperties r c) = some c.summarizedCount <->
      Survives encodeLong decodeLong 0 0 c.summarizedCount :=
    decodeOptional_eq_some (by
      simp [-List.append_nil, conversationProperties, lookup_optional])
  have helements : forall ms, decodeList decodeMessage r'.messages
        (encodeList encodeMessage r.messages ms) = some ms <->
      forall i m, ms[i]? = some m ->
        decodeMessage (r'.messages i) (encodeMessage (r.messages i) m) =
          some m :=
    decodeList_encodeList r.messages r'.messages
  rw [encodeConversation, decodeConversation_eq_some, hid, htitle, hmessages,
    htime, hsummary, hcount, survives_string, survives_time,
    survives_constant decodeString_newChat, decodeString_encodeString,
    survives_constant ((helements []).mpr (by simp)), helements,
    survives_constant decodeNullable_none, decodeNullable_encodeNullable,
    survives_constant (decodeLong_encodeLong 0)]
  simp only [decodeMessage_encodeMessage]
  constructor
  · intro h
    rcases h with ⟨hid, htitle, hmessages, htime, hsummary, _⟩
    exact ⟨hid, htitle, hmessages, htime, hsummary⟩
  · intro h
    exact ⟨h.id, h.title, h.messages, h.updatedAt, h.summary,
      decodeLong_encodeLong c.summarizedCount⟩

/-- A history comes back as it was exactly when each of its conversations is
kept. -/
theorem decode_encode (r r' : Nat -> ConversationReading)
    (conversations : List Conversation) :
    decode r' (encode r conversations) = some conversations <->
      forall i c, conversations[i]? = some c ->
        Conversation.Kept (r i) (r' i) c := by
  rw [decode, encode, decodeList_encodeList]
  simp only [decodeConversation_encodeConversation]

/-!
# Conversations of the repository

Their texts are well-formed, so only what has a default that is evaluated afresh
can change.
-/

def ofMessage (print : Uuid -> HostString) (m : DomainAI.Message) : Message where
  id := print m.id
  role := m.role
  text := HostString.decodeToString m.text
  route := m.route
  sentPayloadPreview := m.sentPayloadPreview.map HostString.decodeToString
  timestamp := m.timestamp

def ofConversation (print : Uuid -> HostString) (c : DomainAI.Conversation) :
    Conversation where
  id := print c.id
  title := HostString.decodeToString c.title
  messages := c.messages.map (ofMessage print)
  updatedAt := c.updatedAt
  summary := c.summary.map HostString.decodeToString
  summarizedCount := c.summarizedCount

/-- An identifier and a time that are not left out, or come back anyway. -/
def Reading.Spares (r r' : Reading) (id : HostString) (time : Millis) : Prop :=
  (id = r.randomUUID -> r'.randomUUID = id) ∧
    (time = r.currentTimeMillis -> r'.currentTimeMillis = time)

section Conversations

variable {print : Uuid -> HostString}
  (hprint : forall id, HostString.wellFormed (print id) = true)

include hprint

theorem kept_id_iff {id : Uuid} {default default' : HostString} :
    (if print id = default then default' = print id
      else HostString.wellFormed (print id) = true) <->
      (print id = default -> default' = print id) := by
  split
  · rename_i h
    exact ⟨fun hdefault _ => hdefault, fun hspares => hspares h⟩
  · rename_i h
    exact ⟨fun _ heq => absurd heq h, fun _ => hprint id⟩

theorem kept_ofMessage (r r' : Reading) (m : DomainAI.Message) :
    Message.Kept r r' (ofMessage print m) <->
      r.Spares r' (print m.id) m.timestamp := by
  constructor
  · intro h
    exact ⟨(kept_id_iff hprint).mp h.id, h.timestamp⟩
  · intro h
    constructor
    · exact (kept_id_iff hprint).mpr h.left
    · exact HostString.wellFormed_decodeToString m.text
    · intro t ht
      rcases Option.map_eq_some_iff.mp ht with ⟨preview, _, htext⟩
      rw [← htext]
      exact HostString.wellFormed_decodeToString preview
    · exact h.right

theorem decode_encode_conversations (r r' : Nat -> ConversationReading)
    (conversations : List DomainAI.Conversation) :
    decode r' (encode r (conversations.map (ofConversation print))) =
        some (conversations.map (ofConversation print)) <->
      forall i c, conversations[i]? = some c ->
        (r i).own.Spares (r' i).own (print c.id) c.updatedAt ∧
        forall j m, c.messages[j]? = some m ->
          ((r i).messages j).Spares ((r' i).messages j) (print m.id)
            m.timestamp := by
  rw [decode_encode]
  constructor
  · intro h i c hc
    have hkept := h i (ofConversation print c) (by
      rw [List.getElem?_map, hc, Option.map_some])
    constructor
    · exact ⟨(kept_id_iff hprint).mp hkept.id, hkept.updatedAt⟩
    · intro j m hm
      apply (kept_ofMessage hprint _ _ m).mp
      apply hkept.messages j
      rw [ofConversation, List.getElem?_map, hm, Option.map_some]
  · intro h i record hrecord
    rw [List.getElem?_map] at hrecord
    rcases Option.map_eq_some_iff.mp hrecord with ⟨c, hc, hof⟩
    rcases h i c hc with ⟨hown, hmessages⟩
    rw [← hof]
    constructor
    · exact (kept_id_iff hprint).mpr hown.left
    · exact HostString.wellFormed_decodeToString c.title
    · intro j m hm
      rw [ofConversation, List.getElem?_map] at hm
      rcases Option.map_eq_some_iff.mp hm with ⟨m0, hm0, hofm⟩
      rw [← hofm]
      exact (kept_ofMessage hprint _ _ m0).mpr (hmessages j m0 hm0)
    · exact hown.right
    · intro t ht
      rcases Option.map_eq_some_iff.mp ht with ⟨summary, _, htext⟩
      rw [← htext]
      exact HostString.wellFormed_decodeToString summary

end Conversations

def readingsAt (randomUUID : HostString) (currentTimeMillis : Millis) (_ : Nat) :
    ConversationReading where
  own := { randomUUID, currentTimeMillis }
  messages := fun _ => { randomUUID, currentTimeMillis }

def updatedAtSeven : Conversation where
  id := [97]
  title := newChat
  messages := [{ id := [109], role := Role.USER, text := [104, 105], route := Route.LOCAL,
                 sentPayloadPreview := none, timestamp := 5 }]
  updatedAt := 7
  summary := none
  summarizedCount := 0

/-- Saved in the millisecond of its last change, a conversation comes back with
the time at which it is loaded. -/
theorem decode_encode_fails :
    ¬ forall (r r' : Nat -> ConversationReading)
        (conversations : List Conversation),
      decode r' (encode r conversations) = some conversations := by
  intro h
  have hsame := h (readingsAt [98] 7) (readingsAt [99] 9) [updatedAtSeven]
  have hkept := (decodeConversation_encodeConversation _ _ _).mp
    ((decodeList_encodeList _ _ _).mp hsame 0 updatedAtSeven rfl)
  have htime := hkept.updatedAt rfl
  revert htime
  decide

end HistoryCodec
end DomainAI
