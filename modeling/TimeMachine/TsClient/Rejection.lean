import TimeMachine.TsClient.Payload
import Mathlib.Logic.Function.Basic
import Mathlib.Data.List.Infix

/-!
# Damaged payloads

`asServingReqRes` takes two sizes from the bytes it decodes and cuts with `slice`, which
clips a bound past the end and counts a negative one from the end. Nothing compares the
sizes with the bytes that are there. A damaged payload is rejected exactly if the damage
is behind the request and either the request is refused or no kind tag is left of the
rest.
-/

namespace TimeMachine.TsClient
open TimeMachine.Base Index

/-- The size of the first part that a payload declares. -/
def reqSize (data : Bytes) : Int := (readInt data 0).toInt

/-- The size of the second part that a payload declares. -/
def respSize (data : Bytes) : Int := (readInt data 4).toInt

/-- The sizes are not both counts of bytes that are there. -/
def Damaged (data : Bytes) : Prop :=
  ¬ (0 ≤ reqSize data ∧ 0 ≤ respSize data ∧ 8 + reqSize data + respSize data ≤ data.length)

instance Damaged.decidable (data : Bytes) : Decidable (Damaged data) :=
  inferInstanceAs (Decidable (¬ (0 ≤ reqSize data ∧ 0 ≤ respSize data ∧
    8 + reqSize data + respSize data ≤ data.length)))

/-- The first part is there. -/
def RequestPresent (data : Bytes) : Prop := 0 ≤ reqSize data ∧ 8 + reqSize data ≤ data.length

/-- What `asServingReqRes` cuts out as the first part. -/
def reqPart (data : Bytes) : Bytes := slice data 8 (8 + reqSize data)

/-- What `asServingReqRes` cuts out as the second part. -/
def respPart (data : Bytes) : Bytes :=
  slice data (8 + reqSize data) (8 + reqSize data + respSize data)

/-! ### Kind tags -/

private theorem prefix_of_getD_ne_zero (b : Bytes) (h : b.getD 3 0 ≠ 0) :
    [b.getD 0 0, b.getD 1 0, b.getD 2 0, b.getD 3 0] <+: b := by
  match b, h with
  | b0 :: b1 :: b2 :: b3 :: rest, _ => exact ⟨rest, rfl⟩
  | [], h => exact absurd rfl h
  | [_], h => exact absurd rfl h
  | [_, _], h => exact absurd rfl h
  | [_, _, _], h => exact absurd rfl h

/-- Four bytes, the last of them not zero, are what is read at the start exactly if they are
there. -/
theorem readInt_eq_tag_iff {b : Bytes} {kind : Int32} (h : (intBytes kind).getD 3 0 ≠ 0) :
    readInt b 0 = kind ↔ intBytes kind <+: b := by
  have hread : readInt b 0 = beInt [b.getD 0 0, b.getD 1 0, b.getD 2 0, b.getD 3 0] :=
    shifts_eq_beInt _ _ _ _
  constructor
  · intro hkind
    have hbytes : intBytes kind = [b.getD 0 0, b.getD 1 0, b.getD 2 0, b.getD 3 0] := by
      rw [← hkind, hread, intBytes_beInt _ rfl]
    rw [hbytes] at h ⊢
    exact prefix_of_getD_ne_zero b h
  · rintro ⟨rest, rfl⟩
    have hfront := readInt_append [] (length_intBytes kind) rest
    rwa [beInt_intBytes] at hfront

/-- A kind tag and the bytes that are left with it: the four bytes behind the first part are a
tag, and the second size, if it is negative, counts back from the end to a place behind the tag. -/
def Tagged (data : Bytes) (kind : Int32) : Prop :=
  intBytes kind <+: data.drop (8 + reqSize data).toNat ∧
    (0 ≤ respSize data ∨
      (8 + reqSize data + respSize data < 0 ∧ 4 ≤ data.length + respSize data))

/-- What is cut out of a damaged payload as the second part starts with a tag exactly if the payload
is tagged. -/
theorem prefix_respPart_iff {data : Bytes} (hdamaged : Damaged data)
    (hreq : RequestPresent data) (kind : Int32) :
    intBytes kind <+: respPart data ↔ Tagged data kind := by
  obtain ⟨hpos, hlen⟩ := hreq
  have hstart : clip data (8 + reqSize data) = (8 + reqSize data).toNat := by
    rw [clip, if_neg (by omega)]
    omega
  rw [respPart, slice, hstart, List.prefix_take_iff, length_intBytes, Tagged]
  apply and_congr_right
  intro hprefix
  have hroom := hprefix.length_le
  rw [length_intBytes, List.length_drop] at hroom
  unfold Damaged at hdamaged
  unfold clip
  split <;> omega

/-! ### Calls of the decoders -/

section
variable {PredictRequest PredictResponse ExecutionError : Type}
  (protos : Protos PredictRequest PredictResponse ExecutionError)

/-- What `decode` passes on of a part: nothing if the presence byte is zero. -/
def bodyOf (part : Bytes) : Bytes := if part[0]? = some 0 then [] else slice part 1 part.length

/-- `PredictRequest.decode` is handed a body: whatever it throws for this body is thrown. -/
def HandsRequest (data body : Bytes) : Prop :=
  ∀ e, asServingReqRes { protos with
    predictRequest := Function.update protos.predictRequest body (.error e) } data = .error e

/-- `PredictResponse.decode` is handed a body. -/
def HandsResponse (data body : Bytes) : Prop :=
  ∀ e, asServingReqRes { protos with
    predictResponse := Function.update protos.predictResponse body (.error e) } data = .error e

/-- `ExecutionError.decode` is handed a body. -/
def HandsError (data body : Bytes) : Prop :=
  ∀ e, asServingReqRes { protos with
    executionError := Function.update protos.executionError body (.error e) } data = .error e

/-- A damaged payload is rejected: `asServingReqRes` throws, hands on a request only if all of it
is there, and hands on nothing of the rest. -/
structure Rejects (data : Bytes) : Prop where
  throws : ∃ e, asServingReqRes protos data = .error e
  request : ∀ body, HandsRequest protos data body → RequestPresent data
  response : ∀ body, ¬ HandsResponse protos data body ∧ ¬ HandsError protos data body

/-- The first part is refused by its decoder. -/
def Refused (data : Bytes) : Prop := ∃ e, decode (reqPart data) protos.predictRequest = .error e

variable {protos}

private theorem not_throws_every {A : Type} (e : String) :
    ¬ ∀ e', (Except.error e : Except String A) = .error e' := by
  intro h
  have hempty : e = "" := Except.error.inj (h "")
  have hother : e = "e" := Except.error.inj (h "e")
  exact absurd (hempty.symm.trans hother) (by decide)

/-- A decoder that throws for the body of a part throws for the part. -/
theorem decode_update {A : Type} (part : Bytes) (f : Bytes → Except String A)
    (x : Except String A) : decode part (Function.update f (bodyOf part) x) = x :=
  Function.update_self _ _ _

/-- The first part goes to its decoder, and then the second part to one of the others. -/
theorem asServingReqRes_eq (data : Bytes) :
    asServingReqRes protos data = decode (reqPart data) protos.predictRequest >>= fun req ↦
      (fun resp ↦ { req, resp }) <$> decodeRespOrError protos (respPart data) := by
  simp only [map_eq_pure_bind]
  rfl

/-- The body of the first part is always handed on. -/
theorem handsRequest_bodyOf (data : Bytes) : HandsRequest protos data (bodyOf (reqPart data)) := by
  intro e
  rw [asServingReqRes_eq, decode_update]
  rfl

/-- A request that is refused, or a second part without a kind tag, makes it throw the same
whatever the two other decoders do. -/
theorem exists_error_of_stops {data : Bytes}
    (h : Refused protos data ∨ ¬ (readInt (respPart data) 0 = 2 ∨ readInt (respPart data) 0 = 3)) :
    ∃ e, ∀ (response : Bytes → Except String PredictResponse)
      (error : Bytes → Except String ExecutionError), asServingReqRes
        { protos with predictResponse := response, executionError := error } data = .error e := by
  cases hreq : decode (reqPart data) protos.predictRequest with
  | error e =>
    refine ⟨e, fun response error ↦ ?_⟩
    rw [asServingReqRes_eq, hreq]
    rfl
  | ok req =>
    have htag := h.resolve_left fun ⟨e, he⟩ ↦ by
      rw [hreq] at he
      cases he
    rw [not_or] at htag
    refine ⟨"Invalid Resp Or Error number:" ++ toString (readInt (respPart data) 0),
      fun response error ↦ ?_⟩
    rw [asServingReqRes_eq, hreq, decodeRespOrError]
    simp only [if_neg htag.1, if_neg htag.2]
    rfl

/-- Otherwise the body of the second part is handed on. -/
theorem hands_bodyOf {data : Bytes} (hreq : ¬ Refused protos data)
    (htag : readInt (respPart data) 0 = 2 ∨ readInt (respPart data) 0 = 3) :
    HandsError protos data (bodyOf (slice (respPart data) 4 (respPart data).length)) ∨
      HandsResponse protos data (bodyOf (slice (respPart data) 4 (respPart data).length)) := by
  obtain ⟨req, hreq⟩ : ∃ req, decode (reqPart data) protos.predictRequest = .ok req := by
    cases h : decode (reqPart data) protos.predictRequest with
    | ok req => exact ⟨req, rfl⟩
    | error e => exact absurd ⟨e, h⟩ hreq
  apply htag.imp
  · intro htag e
    rw [asServingReqRes_eq, hreq, decodeRespOrError]
    simp only [htag, if_pos, decode_update]
    rfl
  · intro htag e
    rw [asServingReqRes_eq, hreq, decodeRespOrError]
    simp only [htag, if_neg (show ¬ (3 : Int32) = 2 by decide), if_pos, decode_update]
    rfl

variable (protos)

/-- A damaged payload is rejected exactly if its request is there and is refused or no tag, 2 or 3,
is left of the rest. -/
theorem asServingReqRes_rejects_iff (data : Bytes) (hdamaged : Damaged data) :
    Rejects protos data ↔
      RequestPresent data ∧ (Refused protos data ∨ ¬ (Tagged data 2 ∨ Tagged data 3)) := by
  have htags (hpresent : RequestPresent data) :
      (readInt (respPart data) 0 = 2 ∨ readInt (respPart data) 0 = 3) ↔
        (Tagged data 2 ∨ Tagged data 3) := by
    rw [readInt_eq_tag_iff (by decide), readInt_eq_tag_iff (by decide),
      prefix_respPart_iff hdamaged hpresent, prefix_respPart_iff hdamaged hpresent]
  constructor
  · intro h
    have hpresent := h.request _ (handsRequest_bodyOf data)
    refine ⟨hpresent, or_iff_not_imp_left.mpr fun hreq htag ↦ ?_⟩
    rcases hands_bodyOf hreq ((htags hpresent).mpr htag) with herror | hresponse
    · exact (h.response _).2 herror
    · exact (h.response _).1 hresponse
  · rintro ⟨hpresent, hstops⟩
    rw [← htags hpresent] at hstops
    obtain ⟨e, he⟩ := exists_error_of_stops hstops
    refine ⟨⟨e, he _ _⟩, fun _ _ ↦ hpresent, fun body ↦ ⟨fun h ↦ ?_, fun h ↦ ?_⟩⟩
    · exact not_throws_every e fun e' ↦ (he _ _).symm.trans (h e')
    · exact not_throws_every e fun e' ↦ (he _ _).symm.trans (h e')

end

/-- A request of one absent body and a response cut off behind its presence byte, handed on as a
response without bytes. -/
theorem asServingReqRes_not_rejects :
    ¬ ∀ (protos : Protos Bytes Bytes Bytes) (data : Bytes), Damaged data → Rejects protos data := by
  intro h
  have hthrows := (h ⟨.ok, .ok, .ok⟩ [0, 0, 0, 1, 0, 0, 0, 100, 0, 0, 0, 0, 3, 1]
    (by decide)).throws
  obtain ⟨e, he⟩ := hthrows
  have hruns : asServingReqRes (⟨.ok, .ok, .ok⟩ : Protos Bytes Bytes Bytes)
      [0, 0, 0, 1, 0, 0, 0, 100, 0, 0, 0, 0, 3, 1] = .ok { req := [], resp := .inr [] } := by
    decide
  rw [hruns] at he
  cases he

/-- Cut off before the end of the tag, the payload is rejected. -/
theorem asServingReqRes_rejects_cut_tag :
    Rejects (⟨.ok, .ok, .ok⟩ : Protos Bytes Bytes Bytes) [0, 0, 0, 1, 0, 0, 0, 100, 0, 0, 0, 0] := by
  apply (asServingReqRes_rejects_iff _ _ (by decide)).mpr
  refine ⟨?_, Or.inr ?_⟩
  · unfold RequestPresent
    decide
  · unfold Tagged
    decide

end TimeMachine.TsClient
