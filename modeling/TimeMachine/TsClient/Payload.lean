import TimeMachine.TsClient.Index
import Mathlib.Data.List.GetD

/-!
# Payloads

The gateway stores a request with its response or error as two sizes and two parts, a
presence byte in each and a kind tag in the second. `asServingReqRes` takes them apart
again, for all bodies whose sizes fit a signed 32-bit integer.
-/

namespace TimeMachine.TsClient
open TimeMachine.Base Index

/-- The encoding of a payload, with the kind as a parameter (the gateway tags a response with
3); `ReqtoreDockerKit.scala:38–70`. -/
def data2save (req : Bytes) (kind : Int32) (resp : Bytes) : Bytes :=
  let pRequest := 1 :: req
  let pResponse := 1 :: resp
  let respOrError := intBytes kind ++ pResponse
  let header := intBytes (Int32.ofNat pRequest.length) ++
    intBytes (Int32.ofNat respOrError.length)
  header ++ (pRequest ++ respOrError)

/-- Four bytes at an offset are read as the signed big-endian number they stand for. -/
theorem readInt_append (front : Bytes) {word : Bytes} (h : word.length = 4) (tail : Bytes) :
    readInt (front ++ (word ++ tail)) front.length = beInt word := by
  have hbyte (i : Nat) (hi : i < 4) :
      (front ++ (word ++ tail)).getD (i + front.length) 0 = word.getD i 0 := by
    rw [List.getD_append_right _ _ _ _ (by omega), Nat.add_sub_cancel,
      List.getD_append _ _ _ _ (by omega)]
  match word, h with
  | [a, b, c, d], _ =>
    rw [readInt, byteAt, byteAt, byteAt, byteAt, hbyte 0 (by decide), hbyte 1 (by decide),
      hbyte 2 (by decide), hbyte 3 (by decide)]
    exact shifts_eq_beInt a b c d

/-- A slice between two positions that are there. -/
theorem slice_append (front body tail : Bytes) (start stop : Int) (hstart : start = front.length)
    (hstop : stop = start + body.length) : slice (front ++ (body ++ tail)) start stop = body := by
  have hlo : clip (front ++ (body ++ tail)) start = front.length := by
    rw [clip, if_neg (by omega)]
    simp only [List.length_append]
    omega
  have hhi : clip (front ++ (body ++ tail)) stop = front.length + body.length := by
    rw [clip, if_neg (by omega)]
    simp only [List.length_append]
    omega
  rw [slice, hlo, hhi, List.drop_left, Nat.add_sub_cancel_left, List.take_left]

/-- A slice up to the end. -/
theorem slice_end (front body : Bytes) (start : Int) (hstart : start = front.length) :
    slice (front ++ body) start (front ++ body).length = body := by
  have h := slice_append front body [] start (front ++ body).length hstart (by
    rw [hstart, List.length_append, Nat.cast_add])
  rwa [List.append_nil] at h

/-- A part behind its presence byte is passed on as it is. -/
theorem decode_present {A : Type} (body : Bytes) (f : Bytes → Except String A) :
    decode (1 :: body) f = f body := by
  have hbody : slice (1 :: body) 1 (1 :: body).length = body := slice_end [1] body 1 rfl
  rw [decode, hbody]
  rfl

section
variable {PredictRequest PredictResponse ExecutionError : Type}
  (protos : Protos PredictRequest PredictResponse ExecutionError)

/-- The second part is passed on according to its tag. -/
theorem decodeRespOrError_tagged (kind : Int32) (resp : Bytes) :
    decodeRespOrError protos (intBytes kind ++ 1 :: resp) =
      if kind = 2 then .inl <$> protos.executionError resp
      else if kind = 3 then .inr <$> protos.predictResponse resp
      else throw ("Invalid Resp Or Error number:" ++ toString kind) := by
  have hnum : readInt (intBytes kind ++ 1 :: resp) 0 = kind := by
    have h := readInt_append [] (length_intBytes kind) (1 :: resp)
    rwa [beInt_intBytes] at h
  have hbody : slice (intBytes kind ++ 1 :: resp) 4 (intBytes kind ++ 1 :: resp).length =
      1 :: resp := slice_end (intBytes kind) (1 :: resp) 4 (by rw [length_intBytes]; rfl)
  rw [decodeRespOrError]
  simp only [hnum, hbody, decode_present]

private theorem asServingReqRes_parts (pRequest respOrError : Bytes)
    (hreq : pRequest.length < 2 ^ 31) (hresp : respOrError.length < 2 ^ 31) :
    asServingReqRes protos (intBytes (Int32.ofNat pRequest.length) ++
        intBytes (Int32.ofNat respOrError.length) ++ (pRequest ++ respOrError)) = (do
      let req ← decode pRequest protos.predictRequest
      let resp ← decodeRespOrError protos respOrError
      return { req, resp }) := by
  generalize hblob : intBytes (Int32.ofNat pRequest.length) ++
    intBytes (Int32.ofNat respOrError.length) ++ (pRequest ++ respOrError) = blob
  have hsize : (readInt blob 0).toInt = pRequest.length := by
    have h := readInt_append [] (length_intBytes (Int32.ofNat pRequest.length))
      (intBytes (Int32.ofNat respOrError.length) ++ (pRequest ++ respOrError))
    rw [List.nil_append, ← List.append_assoc, hblob, beInt_intBytes] at h
    rw [← Int32.toInt_ofNat_of_lt hreq, ← h]
    rfl
  have hsize' : (readInt blob 4).toInt = respOrError.length := by
    have h := readInt_append (intBytes (Int32.ofNat pRequest.length))
      (length_intBytes (Int32.ofNat respOrError.length)) (pRequest ++ respOrError)
    rw [← List.append_assoc, hblob, beInt_intBytes, length_intBytes] at h
    rw [h, Int32.toInt_ofNat_of_lt hresp]
  have hpart : slice blob 8 (8 + pRequest.length) = pRequest := by
    rw [← hblob]
    exact slice_append _ pRequest respOrError _ _ (by simp) rfl
  have hpart' : slice blob (8 + pRequest.length) (8 + pRequest.length + respOrError.length) =
      respOrError := by
    have h := slice_append (intBytes (Int32.ofNat pRequest.length) ++
      intBytes (Int32.ofNat respOrError.length) ++ pRequest) respOrError []
      (8 + pRequest.length) (8 + pRequest.length + respOrError.length) (by
        simp only [List.length_append, length_intBytes]
        omega) rfl
    rwa [List.append_nil, List.append_assoc _ pRequest, hblob] at h
  simp only [asServingReqRes, hsize, hsize', hpart, hpart']

/-- For all bodies whose sizes fit, the payload of an error (kind 2) or of a response (kind 3)
is taken apart so that exactly the two bodies reach their decoders; and any four bytes at any
offset are read as the signed big-endian number they stand for. -/
theorem asServingReqRes_data2save :
    (∀ req resp : Bytes, req.length < 2 ^ 31 - 16 → resp.length < 2 ^ 31 - 16 →
      asServingReqRes protos (data2save req 2 resp) = (do
        let req ← protos.predictRequest req
        let resp ← protos.executionError resp
        return { req, resp := .inl resp }) ∧
      asServingReqRes protos (data2save req 3 resp) = (do
        let req ← protos.predictRequest req
        let resp ← protos.predictResponse resp
        return { req, resp := .inr resp })) ∧
    ∀ (front : Bytes) (a b c d : UInt8) (tail : Bytes),
      let n : Nat := a.toNat * 2 ^ 24 + b.toNat * 2 ^ 16 + c.toNat * 2 ^ 8 + d.toNat
      (readInt (front ++ ([a, b, c, d] ++ tail)) front.length).toInt =
        if n < 2 ^ 31 then (n : Int) else (n : Int) - 2 ^ 32 := by
  constructor
  · intro req resp hreq hresp
    have hparts (kind : Int32) := asServingReqRes_parts protos (1 :: req)
      (intBytes kind ++ 1 :: resp) (by rw [List.length_cons]; omega) (by
        rw [List.length_append, length_intBytes, List.length_cons]
        omega)
    constructor
    · rw [data2save, hparts, decode_present, decodeRespOrError_tagged, if_pos rfl]
      simp only [map_eq_pure_bind, bind_assoc, pure_bind]
    · rw [data2save, hparts, decode_present, decodeRespOrError_tagged, if_neg (by decide),
        if_pos rfl]
      simp only [map_eq_pure_bind, bind_assoc, pure_bind]
  · intro front a b c d tail
    have hval : beNat [a, b, c, d] =
        a.toNat * 2 ^ 24 + b.toNat * 2 ^ 16 + c.toNat * 2 ^ 8 + d.toNat := by
      simp only [beNat, leNat, List.reverse_cons, List.reverse_nil, List.nil_append,
        List.cons_append]
      omega
    rw [readInt_append front rfl tail, toInt_beInt rfl, hval]

end

/-- With decoders that hand on the bytes they get, an error payload gives back both bodies. -/
theorem asServingReqRes_data2save_error :
    asServingReqRes (⟨.ok, .ok, .ok⟩ : Protos Bytes Bytes Bytes) (data2save [7] 2 [0, 8]) =
      .ok { req := [7], resp := .inl [0, 8] } :=
  ((asServingReqRes_data2save ⟨.ok, .ok, .ok⟩).1 [7] [0, 8] (by decide) (by decide)).1

end TimeMachine.TsClient
