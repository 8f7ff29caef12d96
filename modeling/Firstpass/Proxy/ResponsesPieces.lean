import Firstpass.Proxy.ResponsesGroups

/-!
# The content of items and of messages

An item and a message are each a list of pieces: characters of text, images,
parts of other kinds, calls, outputs. `sublist_pieces`: an item's message has
no piece that the item has not; `pieces_turn_iff` says when it has them all.
-/

namespace Firstpass.Responses

open Json

inductive Piece
  | char (c : Char)
  | image (url : Option String)
  | part (p : Value)
  | call (id name : Option Value) (arguments : Option Value)
  | output (callId : Option Value) (text : String)

def textPieces (text : String) : List Piece := text.toList.map .char

-- ---------------------------------------------------------------------------
-- Items
-- ---------------------------------------------------------------------------

/-- A part of another kind is a piece of its own beside its text. -/
def partPieces (p : Value) : List Piece :=
  if isImage p then [.image (imageUrl p)]
  else
    (if isText p ∨ (typeOf p = none ∧ (textOf p).isSome) then [] else [.part p]) ++
      textPieces ((textOf p).getD "")

def inputPieces : Option Value → List Piece
  | some (.string s) => textPieces s
  | some (.array parts) => parts.flatMap partPieces
  | _ => []

def itemPieces (item : Value) : List Piece :=
  if isCall item then [.call (callId item) (item.get "name") (some (callArguments item))]
  else if isOutput item then
    [.output (item.get "call_id") (((item.get "output").bind outputText).getD "")]
  else inputPieces (item.get "content")

-- ---------------------------------------------------------------------------
-- Messages
-- ---------------------------------------------------------------------------

def chatPartPieces (p : Value) : List Piece :=
  if typeOf p = some "text" then textPieces ((textOf p).getD "")
  else if typeOf p = some "image_url" then [.image ((p.get "image_url").bind (strAt "url"))]
  else [.part p]

def chatPieces : Option Value → List Piece
  | some (.string s) => textPieces s
  | some (.array parts) => parts.flatMap chatPartPieces
  | _ => []

def callPiece (c : Value) : Piece :=
  .call (c.get "id") (c.pointer ["function", "name"]) (c.pointer ["function", "arguments"])

def View.pieces (v : View) : List Piece :=
  match v.callId with
  | some id => [.output (some id) ((v.content.bind Value.asStr).getD "")]
  | none => chatPieces v.content ++ v.calls.map callPiece

def messagePieces (m : Value) : List Piece := (view m).pieces

-- ---------------------------------------------------------------------------
-- What one item's message carries
-- ---------------------------------------------------------------------------

/-- The part's text, or its image, reaches the message. -/
def KeptPart (withImage : Bool) (p : Value) : Prop :=
  isText p = true ∨ (isImage p = true ∧ (imageUrl p).isSome = true) ∨
    (typeOf p = none ∧ if withImage then textOf p = some "" else (textOf p).isSome = true)

def hasImage (parts : List Value) : Bool := parts.any isImage

def KeptParts (content : Option Value) : Prop :=
  ∀ parts, content = some (.array parts) → ∀ p ∈ parts, KeptPart (hasImage parts) p

/-- What a part gives to its message; an item with an image keeps typed parts. -/
def givenByPart (withImage : Bool) (p : Value) : List Piece :=
  if withImage then ((partToChat p).map chatPartPieces).getD []
  else textPieces ((textOf p).getD "")

theorem textPieces_join (parts : List Value) :
    textPieces (String.join (parts.filterMap textOf)) = parts.flatMap (givenByPart false) := by
  rw [textPieces, String.toList_join]
  induction parts with
  | nil => rfl
  | cons p parts ih =>
    rw [List.flatMap_cons, ← ih]
    cases htext : textOf p with
    | none =>
      rw [List.filterMap_cons, htext, givenByPart, htext]
      rfl
    | some text =>
      rw [List.filterMap_cons, htext, givenByPart, htext]
      simp [textPieces]

theorem chatPieces_parts (parts : List Value) :
    chatPieces (some (.array (parts.filterMap partToChat))) =
      parts.flatMap (givenByPart true) := by
  rw [chatPieces]
  induction parts with
  | nil => rfl
  | cons p parts ih =>
    rw [List.flatMap_cons, ← ih, givenByPart, if_pos rfl]
    cases hpart : partToChat p with
    | none => rw [List.filterMap_cons, hpart]; rfl
    | some q => rw [List.filterMap_cons, hpart]; rfl

theorem hasImage_eq (parts : List Value) :
    (parts.all fun p => !isImage p) = !hasImage parts := by
  induction parts with
  | nil => rfl
  | cons p parts ih =>
    rw [hasImage, List.all_cons, List.any_cons, ih, Bool.not_or]
    rfl

theorem chatPieces_content (h : contentToChat (some (.array parts)) = some content) :
    chatPieces (some content) = parts.flatMap (givenByPart (hasImage parts)) := by
  rw [contentToChat, hasImage_eq] at h
  cases himage : hasImage parts with
  | false =>
    rw [himage] at h
    cases h
    exact textPieces_join parts
  | true =>
    rw [himage] at h
    cases h
    exact chatPieces_parts parts

theorem not_text_of_image (h : isImage p = true) : isText p = false := by
  have hkind : typeOf p = some "input_image" := of_decide_eq_true h
  simp [isText, hkind]

theorem partPieces_text (himage : isImage p = false) (h : isText p = true) :
    partPieces p = textPieces ((textOf p).getD "") := by
  simp [partPieces, himage, h]

theorem givenByPart_text (h : isText p = true) (withImage : Bool) :
    givenByPart withImage p = textPieces ((textOf p).getD "") := by
  cases withImage with
  | false => rfl
  | true =>
    rw [givenByPart, partToChat, if_pos rfl, if_pos h]
    rfl

theorem givenByPart_image (h : isImage p = true) :
    givenByPart true p = ((imageUrl p).map fun url => [.image (some url)]).getD [] := by
  rw [givenByPart, partToChat, not_text_of_image h, h]
  cases imageUrl p with
  | none => rfl
  | some url => rfl

theorem givenByPart_other (himage : isImage p = false) (h : isText p = false) :
    givenByPart true p = [] := by
  rw [givenByPart, partToChat, h, himage]
  rfl

theorem givenByPart_sublist (h : isImage p = true → withImage = true) :
    (givenByPart withImage p).Sublist (partPieces p) := by
  cases himage : isImage p with
  | true =>
    rw [h himage, givenByPart_image himage, partPieces, if_pos himage]
    cases imageUrl p with
    | none => exact List.nil_sublist _
    | some url => exact List.Sublist.refl _
  | false =>
    cases htext : isText p with
    | true =>
      rw [givenByPart_text htext, partPieces_text himage htext]
    | false =>
      cases withImage with
      | true =>
        rw [givenByPart_other himage htext]
        exact List.nil_sublist _
      | false =>
        rw [partPieces, himage]
        exact List.sublist_append_right _ _

theorem textPieces_eq_nil {text : String} : textPieces text = [] ↔ text = "" := by
  rw [textPieces, List.map_eq_nil_iff, String.toList_eq_nil_iff]

theorem givenByPart_eq_iff (h : isImage p = true → withImage = true) :
    givenByPart withImage p = partPieces p ↔ KeptPart withImage p := by
  cases himage : isImage p with
  | true =>
    have hkind : typeOf p = some "input_image" := of_decide_eq_true himage
    rw [h himage, givenByPart_image himage, partPieces, if_pos himage, KeptPart,
      not_text_of_image himage, himage, hkind]
    cases imageUrl p with
    | none => simp
    | some url => simp
  | false =>
    cases htext : isText p with
    | true =>
      rw [givenByPart_text htext, partPieces_text himage htext]
      exact iff_of_true rfl (.inl htext)
    | false =>
      rw [KeptPart, htext, himage]
      cases withImage with
      | true =>
        rw [givenByPart_other himage htext, partPieces, himage, htext]
        cases hkind : typeOf p <;> cases hsaid : textOf p <;>
          simp [textPieces_eq_nil, eq_comm (a := ([] : List Piece))]
      | false =>
        rw [givenByPart, partPieces, himage, htext]
        cases hkind : typeOf p <;> cases hsaid : textOf p <;> simp [textPieces]

-- ---------------------------------------------------------------------------
-- One item
-- ---------------------------------------------------------------------------

def KeptItem (item : Value) : Prop :=
  isCall item = false → isOutput item = false → KeptParts (item.get "content")

theorem pieces_call (h : isCall item = true) (hm : turnToMessage item = some m) :
    messagePieces m = (toolCalls m).map callPiece ∧ messagePieces m = itemPieces item := by
  obtain ⟨id, name, hid, hname, rfl⟩ := turn_call h hm
  refine ⟨rfl, ?_⟩
  rw [itemPieces, if_pos h, hid, hname]
  rfl

theorem pieces_output (h : isOutput item = true) (hm : turnToMessage item = some m) :
    messagePieces m = itemPieces item := by
  cases turnToMessage_turns hm with
  | call hcall => exact absurd hcall (by rw [not_call_of_output h]; decide)
  | output _ hid htext =>
    rw [itemPieces, not_call_of_output h, h, hid, htext]
    rfl
  | turn hmessage => exact absurd h (by rw [(not_typed hmessage).2]; decide)

theorem givenByPart_parts {parts : List Value} :
    ∀ p ∈ parts, isImage p = true → hasImage parts = true :=
  fun p hp himage => List.any_eq_true.mpr ⟨p, hp, himage⟩

theorem content_sublist (h : contentToChat input = some content) :
    (chatPieces (some content)).Sublist (inputPieces input) := by
  match input, h with
  | some (.string s), h =>
    cases h
    exact List.Sublist.refl _
  | some (.array parts), h =>
    rw [chatPieces_content h, inputPieces]
    exact List.Sublist.flatMap_right parts fun p hp => givenByPart_sublist (givenByPart_parts p hp)

theorem content_eq_iff (h : contentToChat input = some content) :
    chatPieces (some content) = inputPieces input ↔ KeptParts input := by
  match input, h with
  | some (.string s), h =>
    cases h
    exact iff_of_true rfl fun parts hparts => nomatch hparts
  | some (.array parts), h =>
    rw [chatPieces_content h, inputPieces, Carry.flatMap_eq_iff fun p hp =>
      givenByPart_sublist (givenByPart_parts p hp)]
    constructor
    · rintro heq _ ⟨rfl⟩ p hp
      exact (givenByPart_eq_iff (givenByPart_parts p hp)).mp (heq p hp)
    · intro hkept p hp
      exact (givenByPart_eq_iff (givenByPart_parts p hp)).mpr (hkept parts rfl p hp)

theorem pieces_turn {content : Value} {role : String} :
    messagePieces (turnMessage content role) = chatPieces (some content) :=
  List.append_nil (chatPieces (some content))

theorem itemPieces_turn (h : ∀ kind ∈ typeOf item, kind = "message") :
    itemPieces item = inputPieces (item.get "content") := by
  rw [itemPieces, (not_typed h).1, (not_typed h).2]
  rfl

theorem sublist_pieces (h : turnToMessage item = some m) :
    (messagePieces m).Sublist (itemPieces item) := by
  cases turnToMessage_turns h with
  | call hcall => rw [(pieces_call hcall h).2]
  | output houtput => rw [pieces_output houtput h]
  | turn hmessage hcontent =>
    rw [pieces_turn, itemPieces_turn hmessage]
    exact content_sublist hcontent

theorem pieces_turn_iff (h : turnToMessage item = some m) :
    messagePieces m = itemPieces item ↔ KeptItem item := by
  cases turnToMessage_turns h with
  | call hcall =>
    exact iff_of_true (pieces_call hcall h).2 fun hno => absurd hcall (by rw [hno]; decide)
  | output houtput =>
    exact iff_of_true (pieces_output houtput h) fun _ hno => absurd houtput (by rw [hno]; decide)
  | turn hmessage hcontent =>
    rw [pieces_turn, itemPieces_turn hmessage, content_eq_iff hcontent]
    exact ⟨fun hkept _ _ => hkept, fun hkept => hkept (not_typed hmessage).1 (not_typed hmessage).2⟩

-- ---------------------------------------------------------------------------
-- All items
-- ---------------------------------------------------------------------------

/-- The items of a group and their message: the same role, and the pieces in order. -/
structure SaidBy (group : List Value) (m : Value) : Prop where
  ne_nil : group ≠ []
  role : ∀ item ∈ group, strAt "role" m = some (itemRole item)
  pieces : messagePieces m = group.flatMap itemPieces

/-- Every item says its pieces in exactly one message, in order. -/
def Carries (items ms : List Value) : Prop :=
  ∃ groups : List (List Value), groups.flatten = items ∧ List.Forall₂ SaidBy groups ms

theorem pieces_of_carries (h : Carries items ms) :
    ms.flatMap messagePieces = items.flatMap itemPieces := by
  obtain ⟨groups, rfl, hsaid⟩ := h
  induction hsaid with
  | nil => rfl
  | cons hm _ ih =>
    rw [List.flatMap_cons, ih, hm.pieces, List.flatten_cons, List.flatMap_append]

def givenByItem (item : Value) : List Piece :=
  ((turnToMessage item).map messagePieces).getD []

theorem givenByItem_eq (h : turnToMessage item = some m) : givenByItem item = messagePieces m := by
  rw [givenByItem, h]
  rfl

theorem pieces_groupCalls {calls : List Value}
    (h : ∀ c ∈ calls, isCall c = true ∧ (turnToMessage c).isSome = true) :
    (groupCalls calls).map callPiece = calls.flatMap givenByItem := by
  induction calls with
  | nil => rfl
  | cons call calls ih =>
    obtain ⟨⟨hcall, hturn⟩, hrest⟩ := List.forall_mem_cons.mp h
    obtain ⟨m, hm⟩ := Option.isSome_iff_exists.mp hturn
    rw [groupCalls_cons hm, List.map_append, ih hrest, List.flatMap_cons, givenByItem_eq hm,
      (pieces_call hcall hm).1]

theorem assistant_callId (h : turnToMessage item = some m) (ha : isAssistant m = true) :
    (view m).callId = none := by
  cases turnToMessage_turns h with
  | call => rfl
  | output => exact absurd (show false = true from ha) (by decide)
  | turn => rfl

/-- A message has the pieces of its group's messages. -/
theorem pieces_group {calls : List Value} (hhead : turnToMessage item = some head)
    (hcalls : ∀ c ∈ calls, isCall c = true ∧ (turnToMessage c).isSome = true)
    (hassistant : calls ≠ [] → isAssistant head = true)
    (hview : view m = { view head with calls := toolCalls head ++ groupCalls calls }) :
    messagePieces m = (item :: calls).flatMap givenByItem := by
  rw [List.flatMap_cons, givenByItem_eq hhead, ← pieces_groupCalls hcalls]
  by_cases hnil : calls = []
  · have hsame : view m = view head := by
      rw [hview, hnil, groupCalls, List.filterMap_nil, List.flatMap_nil, List.append_nil]
      rfl
    rw [messagePieces, hsame, hnil]
    exact (List.append_nil _).symm
  · have hid := assistant_callId hhead (hassistant hnil)
    rw [messagePieces, messagePieces, hview, View.pieces, View.pieces, hid, List.map_append,
      ← List.append_assoc]
    rfl

theorem pieces_rendered (h : Rendered items ms) :
    ms.flatMap messagePieces = items.flatMap givenByItem := by
  induction h with
  | nil => rfl
  | group hhead hcalls hassistant _ hview _ ih =>
    rw [List.flatMap_cons, pieces_group hhead hcalls hassistant hview, ih, ← List.cons_append,
      List.flatMap_append]

theorem isSome_of_rendered (h : Rendered items ms) :
    ∀ item ∈ items, (turnToMessage item).isSome = true := by
  induction h with
  | nil => exact fun item hitem => absurd hitem List.not_mem_nil
  | group hhead hcalls _ _ _ _ ih =>
    refine List.forall_mem_cons.mpr ⟨by rw [hhead]; rfl, List.forall_mem_append.mpr ⟨?_, ih⟩⟩
    exact fun c hc => (hcalls c hc).2

theorem carries_of_rendered (h : Rendered items ms)
    (hgiven : ∀ item ∈ items, givenByItem item = itemPieces item) : Carries items ms := by
  induction h with
  | nil => exact ⟨[], rfl, .nil⟩
  | @group item head m calls items ms hhead hcalls hassistant hnext hview _ ih =>
    rw [← List.cons_append, List.forall_mem_append] at hgiven
    obtain ⟨groups, hflatten, hsaid⟩ := ih hgiven.2
    have hrole : strAt "role" m = strAt "role" head := congrArg View.role hview
    refine ⟨(item :: calls) :: groups, ?_, .cons ⟨List.cons_ne_nil _ _, ?_, ?_⟩ hsaid⟩
    · rw [List.flatten_cons, hflatten, List.cons_append]
    · intro i hi
      rw [hrole]
      rcases List.mem_cons.mp hi with rfl | hi
      · exact role_turn hhead
      · have ha := hassistant (List.ne_nil_of_mem hi)
        rw [of_decide_eq_true ha, itemRole, if_pos (hcalls i hi).1]
    · rw [pieces_group hhead hcalls hassistant hview]
      exact List.flatMap_congr hgiven.1

/-- Nothing is lost exactly if no item loses a part of its content. -/
theorem carries_iff (h : Rendered items ms) : Carries items ms ↔ ∀ item ∈ items, KeptItem item := by
  have hgiven : (∀ item ∈ items, givenByItem item = itemPieces item) ↔
      ∀ item ∈ items, KeptItem item := by
    refine forall₂_congr fun item hitem => ?_
    obtain ⟨m, hm⟩ := Option.isSome_iff_exists.mp (isSome_of_rendered h item hitem)
    rw [givenByItem_eq hm, pieces_turn_iff hm]
  have hsublist : ∀ item ∈ items, (givenByItem item).Sublist (itemPieces item) := by
    intro item hitem
    obtain ⟨m, hm⟩ := Option.isSome_iff_exists.mp (isSome_of_rendered h item hitem)
    rw [givenByItem_eq hm]
    exact sublist_pieces hm
  rw [← hgiven]
  constructor
  · intro hcarries
    rw [← Carry.flatMap_eq_iff hsublist, ← pieces_rendered h]
    exact pieces_of_carries hcarries
  · exact carries_of_rendered h

end Firstpass.Responses
