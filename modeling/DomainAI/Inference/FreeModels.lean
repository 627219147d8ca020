import DomainAI.Inference.OpenRouterClient

/-!
# Free models

Which entries of the catalog are free models, and which can be read at all.  One entry
that cannot be read costs all the others.
-/

namespace DomainAI
namespace OpenRouterClient

open Library

/-!
# Reading without casts
-/

namespace JsonElement

def isPrimitive : JsonElement -> Bool
  | primitive _ => true
  | _ => false

def isArray : JsonElement -> Bool
  | JsonArray _ => true
  | _ => false

def isObject : JsonElement -> Bool
  | JsonObject _ => true
  | _ => false

def isNull : JsonElement -> Bool
  | primitive JsonPrimitive.JsonNull => true
  | _ => false

def value : JsonElement -> JsonPrimitive
  | primitive value => value
  | _ => JsonPrimitive.JsonNull

def elements : JsonElement -> List JsonElement
  | JsonArray elements => elements
  | _ => []

def content : JsonElement -> List (Text × JsonElement)
  | JsonObject content => content
  | _ => []

def literal (element : JsonElement) : Option Text :=
  element.value.contentOrNull

def member (key : String) (element : JsonElement) : Option JsonElement :=
  element.content.lookup key.toList

theorem jsonPrimitive_yields (element : JsonElement) :
    Yields element.jsonPrimitive (element.isPrimitive = true) element.value := by
  cases element with
  | primitive value => exact Yields.succeeds rfl rfl
  | _ => exact Yields.fails Bool.false_ne_true _ rfl

theorem jsonArray_yields (element : JsonElement) :
    Yields element.jsonArray (element.isArray = true) element.elements := by
  cases element with
  | JsonArray elements => exact Yields.succeeds rfl rfl
  | _ => exact Yields.fails Bool.false_ne_true _ rfl

theorem jsonObject_yields (element : JsonElement) :
    Yields element.jsonObject (element.isObject = true) element.content := by
  cases element with
  | JsonObject content => exact Yields.succeeds rfl rfl
  | _ => exact Yields.fails Bool.false_ne_true _ rfl

end JsonElement

open JsonElement

/-!
# What the catalog offers
-/

def text (content : String) : JsonElement :=
  JsonElement.primitive (JsonPrimitive.JsonLiteral content.toList)

def price (key : String) (entry : JsonElement) : Option Text :=
  (member "pricing" entry).bind fun pricing => (member key pricing).bind literal

def AtZero (entry : JsonElement) : Prop :=
  price "prompt" entry = some "0".toList ∧ price "completion" entry = some "0".toList

/-- Text is the only output modality, but for nulls. -/
def TextOnly (entry : JsonElement) : Prop :=
  exists modalities,
    (member "architecture" entry).bind (member "output_modalities") =
        some (JsonElement.JsonArray modalities) ∧
      (modalities.filter fun element => !element.isNull) = [text "text"]

/-- The entry is a free model, and this is what is kept of it. -/
structure Free (p : Platform) (entry : JsonElement) (model : FreeModel) : Prop where
  id : (member "id" entry).bind literal = some model.id
  atZero : AtZero entry
  textOnly : TextOnly entry
  name : model.name = ((member "name" entry).bind literal).getD model.id
  contextLength : model.contextLength = (((member "context_length" entry).bind
    literal).bind (Text.toIntOrNull p.digit)).getD 0
  logsData : model.logsData = true

def Listed (p : Platform) (a b : FreeModel × Nat) : Prop :=
  Text.notAfter (p.lowercase a.1.name) (p.lowercase b.1.name) = true ∧
    (p.lowercase a.1.name = p.lowercase b.1.name -> a.2 < b.2)

/-- These are the free models among the entries, each once and in order. -/
def Lists (p : Platform) (entries : List JsonElement) (models : List FreeModel) : Prop :=
  exists placed : List (FreeModel × Nat), models = placed.map Prod.fst ∧
    (forall model i, (model, i) ∈ placed <->
      exists entry, entries[i]? = some entry ∧ Free p entry model) ∧
    (placed.map Prod.snd).Nodup ∧ placed.Pairwise (Listed p)

/-!
# What can be read
-/

def Plain (field : Option JsonElement) : Prop :=
  forall element, element ∈ field -> element.isPrimitive = true

def PricesRead (entry : JsonElement) : Prop :=
  forall pricing, pricing ∈ member "pricing" entry -> pricing.isObject = true ∧
    Plain (member "prompt" pricing) ∧ Plain (member "completion" pricing)

def ModalitiesRead (entry : JsonElement) : Prop :=
  forall architecture, architecture ∈ member "architecture" entry ->
    architecture.isObject = true ∧
      forall modalities, modalities ∈ member "output_modalities" architecture ->
        modalities.isArray = true ∧
          forall element, element ∈ modalities.elements -> element.isPrimitive = true

def DescriptionRead (entry : JsonElement) : Prop :=
  Plain (member "id" entry) ∧
    ((member "id" entry).bind literal ≠ none ->
      Plain (member "name" entry) ∧ Plain (member "context_length" entry))

/-- No cast throws: a field may be missing, but where it is looked at it has the
expected type. -/
structure Readable (entry : JsonElement) : Prop where
  object : entry.isObject = true
  prices : PricesRead entry
  modalities : AtZero entry -> ModalitiesRead entry
  description : AtZero entry -> TextOnly entry -> DescriptionRead entry

theorem contentOf_yields (field : Option JsonElement) :
    Yields (contentOf field) (Plain field) (field.bind literal) := by
  have hvalue : (field.map JsonElement.value).bind JsonPrimitive.contentOrNull =
      field.bind literal := by
    cases field <;> rfl
  have h : Yields (contentOf field) (Plain field ∧ True)
      ((field.map JsonElement.value).bind JsonPrimitive.contentOrNull) :=
    Yields.bind (Yields.mapM jsonPrimitive_yields) fun _ => Yields.pure _
  rw [hvalue] at h
  exact h.congr (and_iff_left trivial)

instance decidableAtZero (entry : JsonElement) : Decidable (AtZero entry) :=
  inferInstanceAs (Decidable (_ ∧ _))

theorem pricedAtZero_yields (obj : List (Text × JsonElement)) :
    Yields (pricedAtZero obj) (PricesRead (JsonObject obj))
      (decide (AtZero (JsonObject obj))) := by
  unfold pricedAtZero
  cases hpricing : obj.lookup "pricing".toList with
  | none =>
      have hmember : member "pricing" (JsonObject obj) = none := hpricing
      have hzero : ¬ AtZero (JsonObject obj) := by
        intro h
        have hprice := h.left
        rw [price, hmember] at hprice
        cases hprice
      rw [decide_eq_false hzero]
      refine Yields.succeeds ?_ rfl
      rw [PricesRead, hmember]
      intro pricing h
      cases h
  | some pricing =>
      have hmember : member "pricing" (JsonObject obj) = some pricing := hpricing
      have hzero : decide (AtZero (JsonObject obj)) =
          decide ((member "prompt" pricing).bind literal = some "0".toList ∧
            (member "completion" pricing).bind literal = some "0".toList) := by
        simp only [AtZero, price, hmember, Option.bind_some]
      have hgood : PricesRead (JsonObject obj) <->
          (forall element, element ∈ some pricing -> element.isObject = true) ∧
            Plain (member "prompt" pricing) ∧ Plain (member "completion" pricing) ∧
              True := by
        simp only [PricesRead, hmember, Option.mem_some_iff, forall_eq', and_true]
      rw [hzero]
      refine Yields.congr (Yields.bind (Yields.mapM jsonObject_yields) fun _ => ?_)
        hgood.symm
      exact Yields.bind (contentOf_yields _) fun _ =>
        Yields.bind (contentOf_yields _) fun _ => Yields.pure _

def outputs (entry : JsonElement) : List Text :=
  ((((member "architecture" entry).bind (member "output_modalities")).map
    JsonElement.elements).getD []).filterMap literal

theorem plain_some {element : JsonElement} :
    Plain (some element) <-> element.isPrimitive = true := by
  simp only [Plain, Option.mem_some_iff, forall_eq']

theorem modalitiesRead_iff (entry : JsonElement) :
    ModalitiesRead entry <->
      (forall element, element ∈ member "architecture" entry ->
          element.isObject = true) ∧
        (forall element,
          element ∈ (member "architecture" entry).bind (member "output_modalities") ->
            element.isArray = true) ∧
        forall element,
          element ∈ (((member "architecture" entry).bind
            (member "output_modalities")).map JsonElement.elements).getD [] ->
              Plain (some element) := by
  unfold ModalitiesRead
  cases member "architecture" entry with
  | none => simp
  | some architecture =>
      simp only [Option.bind_some, Option.mem_some_iff, forall_eq', plain_some]
      cases member "output_modalities" architecture with
      | none => simp
      | some modalities => simp

theorem outputModalities_yields (obj : List (Text × JsonElement)) :
    Yields (outputModalities obj) (ModalitiesRead (JsonObject obj))
      (outputs (JsonObject obj)) := by
  have hmodalities : ((obj.lookup "architecture".toList).map JsonElement.content).bind
      (fun content => content.lookup "output_modalities".toList) =
        (member "architecture" (JsonObject obj)).bind (member "output_modalities") :=
    Option.bind_map
  refine Yields.congr (Yields.bind (Yields.mapM jsonObject_yields) fun _ => ?_)
    (modalitiesRead_iff (JsonObject obj)).symm
  rw [hmodalities]
  exact Yields.bind (Yields.mapM jsonArray_yields) fun _ =>
    Yields.filterMapM fun element => contentOf_yields (some element)

def described (p : Platform) (entry : JsonElement) : Option FreeModel :=
  ((member "id" entry).bind literal).map fun id =>
    { id := id
      name := ((member "name" entry).bind literal).getD id
      contextLength := (((member "context_length" entry).bind literal).bind
        (Text.toIntOrNull p.digit)).getD 0 }

theorem describe_yields (p : Platform) (obj : List (Text × JsonElement)) :
    Yields (describe p obj) (DescriptionRead (JsonObject obj))
      (described p (JsonObject obj)) := by
  refine Yields.bind (contentOf_yields (obj.lookup "id".toList)) fun _ => ?_
  unfold described
  have hmember : member "id" (JsonObject obj) = obj.lookup "id".toList := rfl
  rw [hmember]
  cases (obj.lookup "id".toList).bind literal with
  | none => exact Yields.succeeds (fun h => absurd rfl h) rfl
  | some id =>
      have hgood : (Plain (member "name" (JsonObject obj)) ∧
          Plain (member "context_length" (JsonObject obj)) ∧ True) <->
            (some id ≠ none -> Plain (member "name" (JsonObject obj)) ∧
              Plain (member "context_length" (JsonObject obj))) := by
        simp
      refine Yields.congr ?_ hgood
      exact Yields.bind (contentOf_yields _) fun _ =>
        Yields.bind (contentOf_yields _) fun _ => Yields.pure _

theorem filter_not_isNull {es : List JsonElement}
    (h : forall element, element ∈ es -> element.isPrimitive = true) :
    (es.filter fun element => !element.isNull) =
      (es.filterMap literal).map fun content =>
        JsonElement.primitive (JsonPrimitive.JsonLiteral content) := by
  induction es with
  | nil => rfl
  | cons element es ih =>
      rcases List.forall_mem_cons.mp h with ⟨helement, hes⟩
      cases element with
      | primitive value =>
          cases value with
          | JsonNull => exact ih hes
          | JsonLiteral content => exact congrArg (List.cons _) (ih hes)
      | JsonArray elements => cases helement
      | JsonObject content => cases helement

theorem textOnly_iff {entry : JsonElement} (h : ModalitiesRead entry) :
    TextOnly entry <-> outputs entry = ["text".toList] := by
  rcases (modalitiesRead_iff entry).mp h with ⟨_, hmodalities, helements⟩
  unfold TextOnly outputs
  cases hfield : (member "architecture" entry).bind (member "output_modalities") with
  | none =>
      refine iff_of_false ?_ (by simp)
      intro htext
      rcases htext with ⟨modalities, hsome, _⟩
      cases hsome
  | some modalities =>
      have harray := hmodalities modalities hfield
      cases modalities with
      | primitive value => cases harray
      | JsonObject content => cases harray
      | JsonArray es =>
          rw [hfield] at helements
          have hes := @filter_not_isNull es fun element hmem =>
            plain_some.mp (helements element hmem)
          constructor
          · intro htext
            rcases htext with ⟨modalities, hsame, hfilter⟩
            cases hsame
            rw [hes] at hfilter
            have hinjective : Function.Injective fun content : Text =>
                JsonElement.primitive (JsonPrimitive.JsonLiteral content) := by
              intro a b hab
              cases hab
              rfl
            exact hinjective.list_map (hfilter.trans List.map_singleton.symm)
          · intro htext
            refine ⟨es, rfl, hes.trans ?_⟩
            exact congrArg (List.map _) htext

def offer (p : Platform) (entry : JsonElement) : Option FreeModel :=
  if AtZero entry ∧ outputs entry = ["text".toList] then described p entry else none

theorem described_eq_some_iff {p : Platform} {entry : JsonElement} {model : FreeModel} :
    described p entry = some model <->
      (member "id" entry).bind literal = some model.id ∧
        model.name = ((member "name" entry).bind literal).getD model.id ∧
        model.contextLength = (((member "context_length" entry).bind literal).bind
          (Text.toIntOrNull p.digit)).getD 0 ∧
        model.logsData = true := by
  rw [described, Option.map_eq_some_iff]
  constructor
  · intro h
    rcases h with ⟨id, hid, rfl⟩
    exact ⟨hid, rfl, rfl, rfl⟩
  · intro h
    rcases h with ⟨hid, hname, hcontext, hlogs⟩
    refine ⟨model.id, hid, ?_⟩
    rw [<- hname, <- hcontext, <- hlogs]

theorem offer_eq_some_iff {p : Platform} {entry : JsonElement} {model : FreeModel}
    (h : Readable entry) : offer p entry = some model <-> Free p entry model := by
  constructor
  · intro hoffer
    unfold offer at hoffer
    split at hoffer
    · rename_i hfree
      rcases described_eq_some_iff.mp hoffer with ⟨hid, hname, hcontext, hlogs⟩
      exact ⟨hid, hfree.left, (textOnly_iff (h.modalities hfree.left)).mpr hfree.right,
        hname, hcontext, hlogs⟩
    · cases hoffer
  · intro hfree
    have houtputs := (textOnly_iff (h.modalities hfree.atZero)).mp hfree.textOnly
    rw [offer, if_pos ⟨hfree.atZero, houtputs⟩]
    exact described_eq_some_iff.mpr
      ⟨hfree.id, hfree.name, hfree.contextLength, hfree.logsData⟩

theorem readable_iff (entry : JsonElement) :
    Readable entry <-> entry.isObject = true ∧ PricesRead entry ∧
      (AtZero entry -> ModalitiesRead entry ∧
        (outputs entry = ["text".toList] -> DescriptionRead entry)) := by
  constructor
  · intro h
    refine ⟨h.object, h.prices, fun hzero => ⟨h.modalities hzero, fun houtputs => ?_⟩⟩
    exact h.description hzero ((textOnly_iff (h.modalities hzero)).mpr houtputs)
  · intro h
    rcases h with ⟨hobject, hprices, hrest⟩
    refine ⟨hobject, hprices, fun hzero => (hrest hzero).left, fun hzero htext => ?_⟩
    exact (hrest hzero).right ((textOnly_iff (hrest hzero).left).mp htext)

theorem freeModel_yields (p : Platform) (entry : JsonElement) :
    Yields (freeModel p entry) (Readable entry) (offer p entry) := by
  refine Yields.congr ?_ (readable_iff entry).symm
  refine Yields.bind (jsonObject_yields entry) fun hobject => ?_
  cases entry with
  | primitive value => cases hobject
  | JsonArray elements => cases hobject
  | JsonObject obj =>
      refine Yields.bind (pricedAtZero_yields obj) fun _ => ?_
      by_cases hzero : AtZero (JsonObject obj)
      · rw [decide_eq_true hzero, if_pos rfl]
        refine Yields.congr ?_ ⟨fun h _ => h, fun h => h hzero⟩
        refine Yields.bind (outputModalities_yields obj) fun _ => ?_
        by_cases htext : outputs (JsonObject obj) = ["text".toList]
        · rw [if_pos htext, offer, if_pos ⟨hzero, htext⟩]
          exact (describe_yields p obj).congr ⟨fun h _ => h, fun h => h htext⟩
        · rw [if_neg htext, offer, if_neg fun hfree => htext hfree.right]
          exact Yields.succeeds (fun h => absurd h htext) rfl
      · rw [decide_eq_false hzero, if_neg Bool.false_ne_true, offer,
          if_neg fun hfree => hzero hfree.left]
        exact Yields.succeeds (fun h => absurd h hzero) rfl

/-!
# The whole catalog
-/

def byName (p : Platform) (a b : FreeModel) : Prop :=
  Text.notAfter (p.lowercase a.name) (p.lowercase b.name) = true

instance decidableByName (p : Platform) : DecidableRel (byName p) :=
  fun _ _ => inferInstanceAs (Decidable (_ = true))

theorem notAfter_iff {a b : Text} :
    Text.notAfter a b = true <-> a.flatMap Text.utf16 ≤ b.flatMap Text.utf16 :=
  decide_eq_true_iff

instance total_byName (p : Platform) : Std.Total (byName p) where
  total a b := by
    unfold byName
    rw [notAfter_iff, notAfter_iff]
    exact le_total _ _

instance trans_byName (p : Platform) : IsTrans FreeModel (byName p) where
  trans a b c hab hbc := by
    unfold byName at *
    rw [notAfter_iff] at *
    exact le_trans hab hbc

theorem lists_offers (p : Platform) {entries : List JsonElement}
    (h : forall entry, entry ∈ entries -> Readable entry) :
    Lists p entries (sortedByName p (entries.filterMap (offer p))) := by
  rcases exists_placed (byName p) (offer p) entries with
    ⟨placed, hsorted, hplaced, hnodup, hpairwise⟩
  refine ⟨placed, hsorted, ?_, hnodup, ?_⟩
  · intro model i
    rw [hplaced]
    constructor
    · intro hentry
      rcases hentry with ⟨entry, hget, hoffer⟩
      have hread := h entry (List.mem_of_getElem? hget)
      exact ⟨entry, hget, (offer_eq_some_iff hread).mp hoffer⟩
    · intro hentry
      rcases hentry with ⟨entry, hget, hfree⟩
      have hread := h entry (List.mem_of_getElem? hget)
      exact ⟨entry, hget, (offer_eq_some_iff hread).mpr hfree⟩
  · apply hpairwise.imp
    intro a b hab
    refine ⟨hab.left, fun hsame => hab.right ?_⟩
    rw [byName, hsame, notAfter_iff]

theorem parseFreeModels_yields (p : Platform) {body : Text}
    {root : List (Text × JsonElement)} {entries : List JsonElement}
    (hparse : p.parseToJsonElement body = Except.ok (JsonObject root))
    (hdata : root.lookup "data".toList = some (JsonArray entries)) :
    Yields (parseFreeModels p body) (forall entry, entry ∈ entries -> Readable entry)
      (sortedByName p (entries.filterMap (offer p))) := by
  have hrun : parseFreeModels p body =
      entries.filterMapM (freeModel p) >>= fun models =>
        Except.ok (sortedByName p models) := by
    unfold parseFreeModels
    rw [hparse]
    show ((root.lookup "data".toList).mapM JsonElement.jsonArray >>= _) = _
    rw [hdata]
    rfl
  rw [hrun]
  refine Yields.congr (Yields.bind (Yields.filterMapM (freeModel_yields p)) fun _ => ?_)
    (and_iff_left trivial)
  exact Yields.pure _

/-- The listing has exactly the free models of the catalog, each once and in order, if
no entry at all makes a cast throw, and only then. -/
theorem free_models (p : Platform) {body : Text} {root : List (Text × JsonElement)}
    {entries : List JsonElement}
    (hparse : p.parseToJsonElement body = Except.ok (JsonObject root))
    (hdata : root.lookup "data".toList = some (JsonArray entries)) :
    (exists models, parseFreeModels p body = Except.ok models ∧ Lists p entries models) <->
      forall entry, entry ∈ entries -> Readable entry := by
  have hyields := parseFreeModels_yields p hparse hdata
  constructor
  · intro h
    rcases h with ⟨models, hok, _⟩
    exact (hyields.eq_ok_iff.mp hok).left
  · intro h
    exact ⟨_, hyields.eq_ok_iff.mpr ⟨h, rfl⟩, lists_offers p h⟩

def reading (body : Text) (document : JsonElement) : Platform where
  parseToJsonElement := fun text =>
    if text = body then Except.ok document else Except.error Thrown.SerializationException
  lowercase := List.map Char.toLower
  digit := Text.asciiDigit

theorem reading_body (body : Text) (document : JsonElement) :
    (reading body document).parseToJsonElement body = Except.ok document := by
  show (if body = body then Except.ok document else _) = _
  rw [if_pos rfl]

def entry (id price modality : String) : JsonElement :=
  JsonObject
    [("id".toList, text id),
     ("pricing".toList, JsonObject
       [("prompt".toList, text price), ("completion".toList, text price)]),
     ("architecture".toList, JsonObject
       [("output_modalities".toList, JsonArray [text modality])])]

def entryText (id price modality : String) : Text :=
  "\x7b\"id\":\"".toList ++ id.toList ++ "\",\"pricing\":\x7b\"prompt\":\"".toList ++
    price.toList ++ "\",\"completion\":\"".toList ++ price.toList ++
    "\"\x7d,\"architecture\":\x7b\"output_modalities\":[\"".toList ++ modality.toList ++
    "\"]\x7d\x7d".toList

def freeEntry : JsonElement :=
  entry "vendor/chat" "0" "text"

def freeEntryText : Text :=
  entryText "vendor/chat" "0" "text"

def catalog (entries : List JsonElement) : JsonElement :=
  JsonObject [("data".toList, JsonArray entries)]

def catalogText (entries : List Text) : Text :=
  "\x7b\"data\":[".toList ++ Text.joinToString ",".toList entries ++ "]\x7d".toList

theorem entry_readable (id price modality : String) :
    Readable (entry id price modality) where
  object := rfl
  prices := by
    intro pricing h
    cases h
    refine ⟨rfl, ?_, ?_⟩
    · exact plain_some.mpr rfl
    · exact plain_some.mpr rfl
  modalities _ := by
    intro architecture h
    cases h
    refine ⟨rfl, ?_⟩
    intro modalities h
    cases h
    exact ⟨rfl, List.forall_mem_singleton.mpr rfl⟩
  description _ _ := by
    refine ⟨plain_some.mpr rfl, fun _ => ⟨?_, ?_⟩⟩
    · intro element h
      cases h
    · intro element h
      cases h

def fourEntries : List JsonElement :=
  [entry "vendor/Voice" "0" "text", entry "vendor/large" "0.1" "text",
   entry "vendor/brush" "0" "image", freeEntry]

def fourEntriesText : Text :=
  catalogText
    [entryText "vendor/Voice" "0" "text", entryText "vendor/large" "0.1" "text",
     entryText "vendor/brush" "0" "image", freeEntryText]

theorem free_models_catalog :
    let p := reading fourEntriesText (catalog fourEntries)
    let models :=
      [{ id := "vendor/chat".toList, name := "vendor/chat".toList, contextLength := 0 },
       { id := "vendor/Voice".toList, name := "vendor/Voice".toList, contextLength := 0 }]
    parseFreeModels p fourEntriesText = Except.ok models ∧ Lists p fourEntries models := by
  intro p models
  have hparse := reading_body fourEntriesText (catalog fourEntries)
  have hread : forall element, element ∈ fourEntries -> Readable element := by
    intro element helement
    simp only [fourEntries, List.mem_cons, List.not_mem_nil, or_false] at helement
    rcases helement with rfl | rfl | rfl | rfl <;> exact entry_readable _ _ _
  rcases (free_models _ hparse rfl).mpr hread with ⟨listed, hok, hlists⟩
  have hmodels : listed = models :=
    ((parseFreeModels_yields p hparse rfl).eq_ok_iff.mp hok).right.trans (by decide)
  rw [hmodels] at hok hlists
  exact ⟨hok, hlists⟩

def unpriced : JsonElement :=
  JsonObject [("pricing".toList, JsonElement.primitive JsonPrimitive.JsonNull)]

def unpricedText : Text :=
  "\x7b\"pricing\":null\x7d".toList

/-- One entry whose pricing is null costs the free model that comes before it. -/
theorem free_models_fails :
    let body := catalogText [freeEntryText, unpricedText]
    let p := reading body (catalog [freeEntry, unpriced])
    p.parseToJsonElement body = Except.ok (catalog [freeEntry, unpriced]) ∧
      Free p freeEntry { id := "vendor/chat".toList, name := "vendor/chat".toList,
                         contextLength := 0 } ∧
      forall models, parseFreeModels p body ≠ Except.ok models := by
  intro body p
  have hparse := reading_body body (catalog [freeEntry, unpriced])
  refine ⟨hparse, ?_, ?_⟩
  · exact (offer_eq_some_iff (entry_readable _ _ _)).mp (by rfl)
  · intro models hok
    have hread := ((parseFreeModels_yields p hparse rfl).eq_ok_iff.mp hok).left unpriced
      (by simp)
    exact absurd (hread.prices _ rfl).left Bool.false_ne_true

end OpenRouterClient
end DomainAI
