import DriversFramework.HdmiCecEncoding

namespace DriversFramework.HdmiCec

structure Head (header opcode : UInt8) (m : HdmiCecMsg) : Prop where
 inside : m.outside = false
 header_eq : m.header = header
 opcode_eq : m.opcode = opcode

variable {header opcode : UInt8} {m : HdmiCecMsg}

theorem Head.setByte (h : Head header opcode m) {i : ℕ} (hi : 2 ≤ i) (hi' : i < 20) (b : UInt8) :
  Head header opcode (m.setByte i b) where
 inside := by rw [m.setByte_outside i b hi', h.inside]
 header_eq := (m.setByte_data_ne i b (by decide) (by omega)).trans h.header_eq
 opcode_eq := (m.setByte_data_ne i b (by decide) (by omega)).trans h.opcode_eq

theorem Head.setBytes (h : Head header opcode m) {i : ℕ} (hi : 2 ≤ i) (bs : List UInt8)
  (hi' : i + bs.length ≤ 20) : Head header opcode (m.setBytes i bs) := by
 induction bs generalizing m i with
 | nil => exact h
 | cons b bs ih =>
  rw [List.length_cons] at hi'
  exact ih (h.setByte hi (by omega) b) (by omega) (by omega)

theorem Head.setLen (h : Head header opcode m) (len : ℕ) : Head header opcode (m.setLen len) :=
 ⟨h.inside, h.header_eq, h.opcode_eq⟩

theorem setBytes_len (m : HdmiCecMsg) (i : ℕ) (bs : List UInt8) :
  (m.setBytes i bs).len = m.len := by
 induction bs generalizing m i with
 | nil => rfl
 | cons b bs ih => exact ih (m.setByte i b) (i + 1)

/-- A message with nothing but its header -/
def fresh (header : UInt8) : HdmiCecMsg := ({} : HdmiCecMsg).setByte 0 header

theorem fresh_head (header : UInt8) : (fresh header).header = header :=
 HdmiCecMsg.setByte_data_self _ 0 header (by decide)

theorem directedMsg_head (header opcode : UInt8) (len : ℕ) (operands : List UInt8)
  (h : operands.length ≤ 18) :
  Head header opcode (directedMsg len opcode operands (fresh header)) := by
 have hstart : Head header opcode (((fresh header).setLen len).setByte 1 opcode) :=
  { inside := rfl
    header_eq := (HdmiCecMsg.setByte_data_ne _ 1 opcode (by decide) (by decide)).trans
     (fresh_head header)
    opcode_eq := HdmiCecMsg.setByte_data_self _ 1 opcode (by decide) }
 exact hstart.setBytes (by decide) operands (by omega)

theorem broadcastMsg_head (header opcode : UInt8) (len : ℕ) (operands : List UInt8)
  (h : operands.length ≤ 18) :
  Head (header ||| unregisteredOrBroadcast) opcode
   (broadcastMsg len opcode operands (fresh header)) := by
 have hdata : (fresh header).data.getD 0 0 = header := by
  rw [← fresh_head header]
  rfl
 have hstart : Head (header ||| unregisteredOrBroadcast) opcode
   ((orByte ((fresh header).setLen len) 0 unregisteredOrBroadcast).setByte 1 opcode) :=
  { inside := rfl
    header_eq := by
     rw [HdmiCecMsg.header, HdmiCecMsg.setByte_data_ne _ 1 opcode (by decide) (by decide),
      orByte, HdmiCecMsg.setByte_data_self _ 0 _ (by decide), HdmiCecMsg.setLen_data, hdata]
    opcode_eq := HdmiCecMsg.setByte_data_self _ 1 opcode (by decide) }
 exact hstart.setBytes (by decide) operands (by omega)

variable (len : ℕ) (initiatorPhyAddr : UInt16)

theorem directedMsg_len (opcode : UInt8) (operands : List UInt8) (m : HdmiCecMsg) :
  (directedMsg len opcode operands m).len = len := setBytes_len _ _ _

theorem broadcastMsg_len (opcode : UInt8) (operands : List UInt8) (m : HdmiCecMsg) :
  (broadcastMsg len opcode operands m).len = len := setBytes_len _ _ _

theorem Head.copy (h : Head header opcode m) {i : ℕ} (hi : 2 ≤ i) (destMax : ℕ)
  (src : ℕ → UInt8) (count : ℕ) (hi' : i + count ≤ 20) :
  Head header opcode (m.copy i destMax src count) := by
 unfold HdmiCecMsg.copy
 split
 · exact h
 · exact h.setBytes hi _ (by simpa using hi')

theorem copy_len (m : HdmiCecMsg) (i destMax : ℕ) (src : ℕ → UInt8) (count : ℕ) :
  (m.copy i destMax src count).len = m.len := by
 unfold HdmiCecMsg.copy
 split
 · rfl
 · exact setBytes_len _ _ _

theorem appendBytes_len (m : HdmiCecMsg) (bs : List UInt8) :
  (appendBytes m bs).len = m.len + bs.length := by
 induction bs generalizing m with
 | nil => rfl
 | cons b bs ih =>
  rw [appendBytes, ih, HdmiCecMsg.setLen_len, List.length_cons]
  omega

theorem Head.appendBytes (h : Head header opcode m) (hm : 2 ≤ m.len) (bs : List UInt8)
  (hlen : m.len + bs.length ≤ 20) : Head header opcode (appendBytes m bs) := by
 induction bs generalizing m with
 | nil => exact h
 | cons b bs ih =>
  rw [List.length_cons] at hlen
  refine ih ((h.setByte hm (by omega) b).setLen _) ?_ ?_
  · rw [HdmiCecMsg.setLen_len]
    omega
  · rw [HdmiCecMsg.setLen_len]
    omega

theorem fillExtended_len (m : HdmiCecMsg) (bs : List UInt8) (hbs : bs ≠ []) :
  m.len + 1 ≤ (fillExtended m bs).len ∧ (fillExtended m bs).len ≤ m.len + bs.length := by
 induction bs generalizing m with
 | nil => exact absurd rfl hbs
 | cons b bs ih =>
  unfold fillExtended
  simp only [List.length_cons]
  split
  · simp
  · cases bs with
    | nil => simp [fillExtended]
    | cons c cs =>
     have := ih ((m.setByte m.len b).setLen (m.len + 1)) (by simp)
     rw [HdmiCecMsg.setLen_len] at this
     omega

theorem Head.fillExtended (h : Head header opcode m) (hm : 2 ≤ m.len) (bs : List UInt8)
  (hlen : m.len + bs.length ≤ 20) : Head header opcode (fillExtended m bs) := by
 induction bs generalizing m with
 | nil => exact h
 | cons b bs ih =>
  rw [List.length_cons] at hlen
  have hnext := (h.setByte hm (by omega) b).setLen (m.len + 1)
  unfold HdmiCec.fillExtended
  simp only
  split
  · exact hnext
  · refine ih hnext ?_ ?_
    · rw [HdmiCecMsg.setLen_len]
      omega
    · rw [HdmiCecMsg.setLen_len]
      omega

theorem Head.digitalServiceId (h : Head header opcode m) (base : ℕ) (hbase : 2 ≤ base)
  (hbase' : base + 7 ≤ 20) (len : ℕ) (digital : HdmiCecDigitalServiceId) :
  Head header opcode (hdmiCecEncodingDigitalServiceId base len digital m) := by
 have hfirst := h.setByte hbase (by omega) ((digital.method <<< 7) ||| digital.system)
 have hrest (bs : List UInt8) (hbs : bs.length ≤ 6) :=
  hfirst.setBytes (i := base + 1) (by omega) bs (by omega)
 unfold hdmiCecEncodingDigitalServiceId
 split
 · exact h
 · simp only
   split_ifs
   · exact hrest _ (by simp [channelBytes, word])
   · exact hrest _ (by simp [word])
   · exact hrest _ (by simp [word])
   · exact hrest _ (by simp [word])
   · exact hfirst

theorem digitalServiceId_len (base len : ℕ) (digital : HdmiCecDigitalServiceId)
  (m : HdmiCecMsg) : (hdmiCecEncodingDigitalServiceId base len digital m).len = m.len := by
 unfold hdmiCecEncodingDigitalServiceId
 split
 · rfl
 · simp only
   split_ifs
   all_goals simp [setBytes_len]

def longEnough (opcode : UInt8) (len : ℕ) : Bool :=
 (hdmiCecGetMsgLenInfo opcode).any fun info => decide (info.minLen ≤ len)

theorem longEnough_mono {len' : ℕ} (h : longEnough opcode len = true) (hle : len ≤ len') :
  longEnough opcode len' = true := by
 unfold longEnough at *
 rw [Option.any_eq_true] at *
 obtain ⟨info, hinfo, hmin⟩ := h
 exact ⟨info, hinfo, decide_eq_true ((of_decide_eq_true hmin).trans hle)⟩

structure Encoded (header opcode : UInt8) (m : HdmiCecMsg) : Prop extends Head header opcode m where
 long : longEnough opcode m.len = true
 short : m.len ≤ 16
 special : hdmiCecCheckSomeSpecialfMsgLen m opcode = true

def unspecial (opcode : UInt8) : Bool := opcode != Opcode.timerStatus && opcode != Opcode.recordOn

theorem special_of_unspecial (h : unspecial opcode = true) :
  hdmiCecCheckSomeSpecialfMsgLen m opcode = true := by
 unfold unspecial at h
 simp only [Bool.and_eq_true, bne_iff_ne, ne_eq] at h
 unfold hdmiCecCheckSomeSpecialfMsgLen
 rw [if_neg h.1, if_neg h.2]

theorem Head.encoded (h : Head header opcode m) (len : ℕ) (hlen : m.len = len)
  (hlong : longEnough opcode len = true) (hshort : len ≤ 16) (hop : unspecial opcode = true) :
  Encoded header opcode m :=
 { h with
  long := by rw [hlen]; exact hlong
  short := by rw [hlen]; exact hshort
  special := special_of_unspecial hop }

theorem Encoded.setRsp (h : Encoded header opcode m) (response : Bool) (rspMsg : UInt8) :
  Encoded header opcode (m.setRsp response rspMsg) := by
 cases response
 · exact h
 · exact ⟨⟨h.inside, h.header_eq, h.opcode_eq⟩, h.long, h.short, h.special⟩

theorem encoded_directed {len : ℕ} {operands : List UInt8} (hops : operands.length ≤ 18)
  (hlong : longEnough opcode len = true) (hshort : len ≤ 16) (hop : unspecial opcode = true) :
  Encoded header opcode (directedMsg len opcode operands (fresh header)) :=
 (directedMsg_head header opcode len operands hops).encoded len (directedMsg_len _ _ _ _) hlong
  hshort hop

theorem encoded_broadcast {len : ℕ} {operands : List UInt8} (hops : operands.length ≤ 18)
  (hlong : longEnough opcode len = true) (hshort : len ≤ 16) (hop : unspecial opcode = true) :
  Encoded (header ||| unregisteredOrBroadcast) opcode
   (broadcastMsg len opcode operands (fresh header)) :=
 (broadcastMsg_head header opcode len operands hops).encoded len (broadcastMsg_len _ _ _ _)
  hlong hshort hop

theorem encoded_data {most : ℕ} {lead : List UInt8} {data : ℕ → UInt8} {len : ℕ} (hlen : 0 < len)
  (hmost : lead.length + most ≤ 14) (hlong : longEnough opcode (getMsgLen lead.length) = true)
  (hop : unspecial opcode = true) :
  Encoded header opcode (dataMsg most opcode lead data len (fresh header)) := by
 unfold dataMsg
 rw [if_neg (Nat.ne_of_gt hlen)]
 have hcut : (if most < len then most else len) ≤ most := by
  split <;> omega
 refine ((directedMsg_head header opcode _ lead (by omega)).copy (by omega) _ _ _
  (by omega)).encoded _ (by rw [copy_len, directedMsg_len]) (longEnough_mono _ hlong ?_) ?_ hop
 · unfold getMsgLen
   omega
 · unfold getMsgLen
   omega

theorem Head.commTimerInfo (h : Head header opcode m) (len : ℕ) (info : HdmiCecCommTimerInfo) :
  Head header opcode (hdmiCecEncodingCommTimerInfo len info m) := by
 unfold hdmiCecEncodingCommTimerInfo
 split
 · exact h
 · exact h.setBytes (by decide) _ (by simp)

theorem commTimerInfo_len (info : HdmiCecCommTimerInfo) (m : HdmiCecMsg) :
  (hdmiCecEncodingCommTimerInfo len info m).len = m.len := by
 unfold hdmiCecEncodingCommTimerInfo
 split
 · rfl
 · exact setBytes_len _ _ _

theorem encoded_timer {info : HdmiCecCommTimerInfo} {bs : List UInt8} (hbs : bs.length ≤ 11)
  (hlong : longEnough opcode (getMsgLen 11) = true) (hop : unspecial opcode = true) :
  Encoded header opcode ((hdmiCecEncodingCommTimerInfo 7 info
   (directedMsg (getMsgLen 11) opcode [] (fresh header))).setBytes (2 + 7) bs) := by
 have hcomm := (directedMsg_head header opcode (getMsgLen 11) [] (by simp)).commTimerInfo 7 info
 refine (hcomm.setBytes (by decide) bs (by omega)).encoded _ ?_ hlong (by decide) hop
 rw [setBytes_len, commTimerInfo_len, directedMsg_len]

theorem encoded_digitalTimer {info : HdmiCecDigitalTimerInfo}
  (hlong : longEnough opcode (getMsgLen 14) = true) (hop : unspecial opcode = true) :
  Encoded header opcode (hdmiCecEncodingDigitalTimerInfo 14 info
   (directedMsg (getMsgLen 14) opcode [] (fresh header))) := by
 have hcomm :=
  (directedMsg_head header opcode (getMsgLen 14) [] (by simp)).commTimerInfo 7 info.commInfo
 refine (hcomm.digitalServiceId (2 + 7) (by decide) (by decide) (14 - 7) info.id).encoded
  _ ?_ hlong (by decide) hop
 rw [digitalServiceId_len, commTimerInfo_len, directedMsg_len]

theorem setBytes_data_lt (m : HdmiCecMsg) (i : ℕ) (bs : List UInt8) {j : ℕ} (hj : j < 20)
  (h : j < i) : (m.setBytes i bs).data[j] = m.data[j] := by
 induction bs generalizing m i with
 | nil => rfl
 | cons b bs ih =>
  rw [HdmiCecMsg.setBytes, ih (m.setByte i b) (i + 1) (by omega)]
  exact m.setByte_data_ne i b hj (by omega)

theorem directedMsg_first (opcode b : UInt8) (bs : List UInt8) (m : HdmiCecMsg) :
  (directedMsg len opcode (b :: bs) m).operand = b := by
 unfold directedMsg
 rw [HdmiCecMsg.operand, HdmiCecMsg.setBytes, setBytes_data_lt _ _ _ (by decide) (by decide)]
 exact HdmiCecMsg.setByte_data_self _ 2 b (by decide)

theorem digitalServiceId_data_lt (base len : ℕ) (digital : HdmiCecDigitalServiceId)
  (m : HdmiCecMsg) {j : ℕ} (hj : j < 20) (h : j < base) :
  (hdmiCecEncodingDigitalServiceId base len digital m).data[j] = m.data[j] := by
 have hfirst (b : UInt8) := m.setByte_data_ne base b hj (by omega)
 unfold hdmiCecEncodingDigitalServiceId
 split
 · rfl
 · simp only
   split_ifs
   all_goals simp [setBytes_data_lt, hfirst, Nat.lt_succ_of_lt h]

theorem Head.recordOn (h : Head header Opcode.recordOn m) (t : UInt8) (len : ℕ)
  (htype : m.operand = t) (hlen : m.len = len) (hmin : 3 ≤ len) (hshort : len ≤ 16)
  (hcheck : ∀ msg : HdmiCecMsg, msg.operand = t → msg.len = len →
   hdmiCecCheckRecordOnMsgLen msg = true) : Encoded header Opcode.recordOn m :=
 { h with
  long := by
   rw [hlen]
   exact longEnough_mono 3 (by decide) hmin
  short := by rw [hlen]; exact hshort
  special := hcheck m htype hlen }

theorem encoded_recordOn {src : HdmiCecRecordSource} (h : 1 ≤ src.type ∧ src.type ≤ 5)
  (response : Bool) :
  Encoded header Opcode.recordOn (hdmiCecEncodingRecordOnMsg src response (fresh header)) := by
 refine Encoded.setRsp ?_ response Opcode.recordStatus
 have hhead (len : ℕ) (bs : List UInt8) (hbs : bs.length ≤ 18) :=
  directedMsg_head header Opcode.recordOn len bs hbs
 split_ifs with h1 h2 h3 h4 h5
 · refine (hhead _ [1] (by simp)).recordOn _ _ (directedMsg_first _ _ _ _ _)
    (directedMsg_len _ _ _ _) (by decide) (by decide) ?_
   intro msg ht _
   simp [hdmiCecCheckRecordOnMsgLen, ht]
 · refine ((hhead _ [2] (by simp)).digitalServiceId 3 (by decide) (by decide) 7
    src.id).recordOn 2 10 ?_ ?_ (by decide) (by decide) ?_
   · exact (digitalServiceId_data_lt _ _ _ _ (by decide) (by decide)).trans
      (directedMsg_first _ _ _ _ _)
   · rw [digitalServiceId_len, directedMsg_len]
   · intro msg ht hl
     simp [hdmiCecCheckRecordOnMsgLen, ht, hl]
 · refine (hhead _ (3 :: src.analog.bytes) (by simp [AnalogService.bytes, word])).recordOn _ _
    (directedMsg_first _ _ _ _ _) (directedMsg_len _ _ _ _) (by decide) (by decide) ?_
   intro msg ht hl
   simp [hdmiCecCheckRecordOnMsgLen, ht, hl]
 · refine (hhead _ [4, src.extPlug] (by simp)).recordOn _ _ (directedMsg_first _ _ _ _ _)
    (directedMsg_len _ _ _ _) (by decide) (by decide) ?_
   intro msg ht hl
   simp [hdmiCecCheckRecordOnMsgLen, ht, hl]
 · refine (hhead _ (5 :: word src.extPhyAddr) (by simp [word])).recordOn _ _
    (directedMsg_first _ _ _ _ _) (directedMsg_len _ _ _ _) (by decide) (by decide) ?_
   intro msg ht hl
   simp [hdmiCecCheckRecordOnMsgLen, ht, hl]
 · -- no other type is between the first and the last
   simp only [← UInt8.toNat_inj, UInt8.le_iff_toNat_le, UInt8.reduceToNat] at h h1 h2 h3 h4 h5
   omega

/-- The parameters fit the bits that the status has for them. -/
def HdmiCecTimerStatusData.InRange (status : HdmiCecTimerStatusData) : Prop :=
 status.timerOverlap < 2 ∧ status.mediaInfo < 4 ∧ status.indicator < 2 ∧ status.info < 16

def HdmiCecTimerStatusData.byte (status : HdmiCecTimerStatusData) : UInt8 :=
 status.timerOverlap <<< 7 ||| status.mediaInfo <<< 5 ||| status.indicator <<< 4 |||
  status.info

theorem timerStatus_bits : ∀ (a : Fin 2) (b : Fin 4) (c : Fin 2) (d : Fin 16),
  let byte := UInt8.ofNat a <<< 7 ||| UInt8.ofNat b <<< 5 ||| UInt8.ofNat c <<< 4 |||
   UInt8.ofNat d
  byte &&& 0xf = UInt8.ofNat d ∧ ((0 : UInt8) < byte &&& 0x10 ↔ 0 < UInt8.ofNat c) := by
 decide +kernel

theorem HdmiCecTimerStatusData.InRange.bits {status : HdmiCecTimerStatusData}
  (h : status.InRange) : status.byte &&& 0xf = status.info ∧
   ((0 : UInt8) < status.byte &&& 0x10 ↔ 0 < status.indicator) := by
 obtain ⟨ha, hb, hc, hd⟩ := h
 have := timerStatus_bits ⟨_, UInt8.lt_iff_toNat_lt.mp ha⟩ ⟨_, UInt8.lt_iff_toNat_lt.mp hb⟩
  ⟨_, UInt8.lt_iff_toNat_lt.mp hc⟩ ⟨_, UInt8.lt_iff_toNat_lt.mp hd⟩
 simp only [UInt8.ofNat_toNat] at this
 exact this

theorem orByte_second (m : HdmiCecMsg) (b : UInt8) :
  (orByte m 2 b).operand = m.operand ||| b := by
 unfold orByte
 rw [HdmiCecMsg.operand, HdmiCecMsg.setByte_data_self m 2 _ (by decide)]
 simp [Vector.getD]

theorem encoded_timerStatus {status : HdmiCecTimerStatusData} (h : status.InRange) :
  Encoded header Opcode.timerStatus (hdmiCecEncodingTimerStatusMsg status (fresh header)) := by
 obtain ⟨hinfo, hind⟩ := h.bits
 have hstart := directedMsg_head header Opcode.timerStatus (getMsgLen 1) [] (by simp)
 have hor {msg : HdmiCecMsg} (hm : Head header Opcode.timerStatus msg) (b : UInt8) :
   Head header Opcode.timerStatus (orByte msg 2 b) := hm.setByte (by decide) (by decide) _
 have hfour := hor (hor (hor (hor hstart (status.timerOverlap <<< 7)) (status.mediaInfo <<< 5))
  (status.indicator <<< 4)) status.info
 have hzero : (directedMsg (getMsgLen 1) Opcode.timerStatus [] (fresh header)).operand = 0 := rfl
 have hbyte : (orByte (orByte (orByte (orByte (directedMsg (getMsgLen 1) Opcode.timerStatus []
   (fresh header)) 2 (status.timerOverlap <<< 7)) 2 (status.mediaInfo <<< 5)) 2
   (status.indicator <<< 4)) 2 status.info).operand = status.byte := by
  simp only [orByte_second, hzero, UInt8.zero_or]
  rfl
 have hlen : (orByte (orByte (orByte (orByte (directedMsg (getMsgLen 1) Opcode.timerStatus []
   (fresh header)) 2 (status.timerOverlap <<< 7)) 2 (status.mediaInfo <<< 5)) 2
   (status.indicator <<< 4)) 2 status.info).len = 3 := rfl
 unfold hdmiCecEncodingTimerStatusMsg
 simp only
 generalize orByte (orByte (orByte (orByte _ 2 _) 2 _) 2 _) 2 _ = msg at hfour hbyte hlen ⊢
 have hspecial {m : HdmiCecMsg} (hsecond : m.operand = status.byte)
   (hdur : status.duration = true → 5 ≤ m.len) :
   hdmiCecCheckSomeSpecialfMsgLen m Opcode.timerStatus = true := by
  change hdmiCecCheckTimerStatusMsgLen m = true
  unfold HdmiCecTimerStatusData.duration at hdur
  unfold hdmiCecCheckTimerStatusMsgLen
  simp only [hsecond, hinfo, hind]
  split_ifs at hdur ⊢ with hprog hdup
  · by_cases hspace : (status.info == 0x09 || status.info == 0x0b) = true
    · simp [Nat.not_lt.mpr (hdur hspace)]
    · simp [hspace]
  · have := hdur (by simpa using hdup)
    simp [Nat.not_lt.mpr this]
  · rfl
 split
 · refine { (hfour.setLen (getMsgLen 3)).setBytes (i := 3) (by decide) _ (by simp) with
    long := ?_, short := ?_, special := hspecial ?_ ?_ }
   · rw [setBytes_len, HdmiCecMsg.setLen_len]
     decide
   · rw [setBytes_len, HdmiCecMsg.setLen_len]
     decide
   · exact (setBytes_data_lt _ _ _ (by decide) (by decide)).trans hbyte
   · intro _
     rw [setBytes_len, HdmiCecMsg.setLen_len]
 · next hdur =>
   refine { hfour with long := ?_, short := ?_, special := hspecial hbyte ?_ }
   · rw [hlen]
     decide
   · rw [hlen]
     decide
   · intro h
     exact absurd h hdur

theorem encoded_setMenuLanguage (language : ℕ → UInt8) :
  Encoded (header ||| unregisteredOrBroadcast) Opcode.setMenuLanguage
   (hdmiCecEncodingSetMenuLanguageMsg language 3 (fresh header)) := by
 unfold hdmiCecEncodingSetMenuLanguageMsg
 rw [if_neg (by simp)]
 refine ((broadcastMsg_head header Opcode.setMenuLanguage (getMsgLen 3) [] (by simp)).copy
  (i := 2) (by decide) _ language 3 (by decide)).encoded 5 ?_ (by decide) (by decide) (by decide)
 rw [copy_len, broadcastMsg_len]

theorem encoded_reportFeatures (info : HdmiCecInfo) :
  Encoded (header ||| unregisteredOrBroadcast) Opcode.reportFeatures
   (hdmiCecEncodingReportFeaturesMsg info (fresh header)) := by
 have hfour := ((((broadcastMsg_head header Opcode.reportFeatures (getMsgLen 0) [] (by simp)).setByte
  (i := 2) (by decide) (by decide) info.cecVersion).setLen 3).setByte (i := 3) (by decide)
  (by decide) info.allDeviceType).setLen 4
 unfold hdmiCecEncodingReportFeaturesMsg
 simp only [broadcastMsg_len, HdmiCecMsg.setLen_len]
 generalize hmsg : (HdmiCecMsg.setLen (HdmiCecMsg.setByte _ 3 _) _) = msg
 have hhead : Head (header ||| unregisteredOrBroadcast) Opcode.reportFeatures msg := hmsg ▸ hfour
 have hlen : msg.len = 4 := by rw [← hmsg]; rfl
 have hrc := fillExtended_len msg info.rcProfile.toList (by simp)
 have hdev := fillExtended_len (fillExtended msg info.rcProfile.toList) info.devFeatures.toList
  (by simp)
 simp only [hlen, Vector.length_toList] at hrc hdev
 have hfilled := hhead.fillExtended (by omega) info.rcProfile.toList (by simp [hlen])
 refine (hfilled.fillExtended (by omega) info.devFeatures.toList (by simp; omega)).encoded _ rfl
  (longEnough_mono 6 (by decide) (by omega)) (by omega) (by decide)

theorem encoded_selectDigitalService (digital : HdmiCecDigitalServiceId) :
  Encoded header Opcode.selectDigitalService
   (hdmiCecEncodingSelectDigitalServiceMsg digital (fresh header)) := by
 refine ((directedMsg_head header Opcode.selectDigitalService (getMsgLen 7) []
  (by simp)).digitalServiceId 2 (by decide) (by decide) 7 digital).encoded 9 ?_
  (by decide) (by decide) (by decide)
 rw [digitalServiceId_len, directedMsg_len]

theorem encoded_tunerDeviceStatus (info : HdmiCecTunerDeviceInfo) :
  Encoded header Opcode.tunerDeviceStatus
   (hdmiCecEncodingTunerDeviceStatusMsg info (fresh header)) := by
 unfold hdmiCecEncodingTunerDeviceStatusMsg
 simp only
 split
 · exact encoded_directed (by simp [AnalogService.bytes, word]) (by decide) (by decide) (by decide)
 · refine ((directedMsg_head header Opcode.tunerDeviceStatus (getMsgLen 8) [_]
    (by simp)).digitalServiceId 3 (by decide) (by decide) 7 info.digital).encoded 10 ?_
    (by decide) (by decide) (by decide)
   rw [digitalServiceId_len, directedMsg_len]

theorem encoded_userControlPrtessed (cmd : HdmiCecUiCmd) :
  Encoded header Opcode.userControlPressed
   (hdmiCecEncodingUserControlPrtessedMsg cmd (fresh header)) := by
 have hstart := directedMsg_head header Opcode.userControlPressed (getMsgLen 1) [cmd.cmdType]
  (by simp)
 have hplain := hstart.encoded 3 (directedMsg_len _ _ _ _) (by decide) (by decide) (by decide)
 unfold hdmiCecEncodingUserControlPrtessedMsg
 simp only [directedMsg_len]
 split_ifs
 · exact hplain
 · exact ((hstart.setLen 4).setByte (i := 3) (by decide) (by decide) _).encoded 4 rfl (by decide)
    (by decide) (by decide)
 · refine ((hstart.setLen 7).setBytes (i := 3) (by decide) _
    (by simp [channelBytes, word])).encoded 7 ?_ (by decide) (by decide) (by decide)
   rw [setBytes_len, HdmiCecMsg.setLen_len]
 · exact hplain

theorem flatMap_length {α : Type} (f : α → List UInt8) (k : ℕ) (hf : ∀ a, (f a).length = k)
  (as : List α) : (as.flatMap f).length = k * as.length := by
 induction as with
 | nil => rfl
 | cons a as ih =>
  rw [List.flatMap_cons, List.length_append, ih, hf, List.length_cons, Nat.mul_succ]
  omega

theorem encoded_requestShortAudioDescriptor (id code : ℕ → UInt8) {len : ℕ} (h : 0 < len)
  (response : Bool) : Encoded header Opcode.requestShortAudioDescriptor
   (hdmiCecEncodingRequestShortAudioDescriptorMsg id code len response (fresh header)) := by
 have hcut : (if 4 < len then 4 else len) ≤ 4 := by
  split <;> omega
 unfold hdmiCecEncodingRequestShortAudioDescriptorMsg
 rw [if_neg (Nat.ne_of_gt h)]
 refine (encoded_directed ?_ (longEnough_mono 2 (by decide) ?_) ?_ (by decide)).setRsp _ _
 · rw [List.length_map, List.length_range]
   omega
 · unfold getMsgLen
   omega
 · unfold getMsgLen
   omega

theorem encoded_reportShortAudioDescriptor (descriptor : ℕ → UInt32) {len : ℕ} (h : 0 < len) :
  Encoded header Opcode.reportShortAudioDescriptor
   (hdmiCecEncodingReportShortAudioDescriptorMsg descriptor len (fresh header)) := by
 have hcut : (if 4 < len then 4 else len) ≤ 4 := by
  split <;> omega
 unfold hdmiCecEncodingReportShortAudioDescriptorMsg
 rw [if_neg (Nat.ne_of_gt h)]
 refine encoded_directed ?_ (longEnough_mono 2 (by decide) ?_) ?_ (by decide)
 · rw [flatMap_length _ 3 fun i => rfl, List.length_range]
   omega
 · unfold getMsgLen
   omega
 · unfold getMsgLen
   omega

theorem encoded_reportCurrentLatency (phyAddr : UInt16) (info : HdmiCecLatencyInfo) :
  Encoded (header ||| unregisteredOrBroadcast) Opcode.reportCurrentLatency
   (hdmiCecEncodingReportCurrentLatencyMsg phyAddr info (fresh header)) := by
 unfold hdmiCecEncodingReportCurrentLatencyMsg
 simp only [broadcastMsg_len]
 split
 · exact (((broadcastMsg_head header Opcode.reportCurrentLatency (getMsgLen 4) _
    (by simp [word])).setLen 7).setByte (i := 6) (by decide) (by decide) _).encoded 7 rfl
    (by decide) (by decide) (by decide)
 · exact encoded_broadcast (by simp [word]) (by decide) (by decide) (by decide)

theorem encoded_cdc (header : UInt8) (len : ℕ) (initiatorPhyAddr : UInt16) (cdcOpcode : UInt8)
  {operands : List UInt8} (hops : operands.length ≤ 15)
  (hlong : longEnough Opcode.cdcMessage len = true) (hshort : len ≤ 16) :
  Encoded (header ||| unregisteredOrBroadcast) Opcode.cdcMessage
   (cdcMsg len initiatorPhyAddr cdcOpcode operands (fresh header)) :=
 encoded_broadcast (by simp [word]; omega) hlong hshort (by decide)

theorem encoded_hecReportState (phyAddr : UInt16) (state : HdmiCdcHecState) :
  Encoded (header ||| unregisteredOrBroadcast) Opcode.cdcMessage
   (hdmiCdcEncodingHecReportStateMsg initiatorPhyAddr phyAddr state (fresh header)) := by
 have hstart {operands : List UInt8} (h : operands.length ≤ 15) :=
  encoded_cdc header (getCdcMsgLen 3) initiatorPhyAddr CdcOpcode.hecReportState h
   (by decide) (by decide)
 unfold hdmiCdcEncodingHecReportStateMsg
 simp only
 split
 · refine (((hstart (by simp [word])).toHead.setLen (getCdcMsgLen 5)).setBytes (i := 8)
    (by decide) (word state.hecField) (by simp [word])).encoded 10 ?_ (by decide) (by decide)
    (by decide)
   rw [setBytes_len, HdmiCecMsg.setLen_len]
 · exact hstart (by simp [word])

theorem encoded_appendBytes {len : ℕ} {initiatorPhyAddr : UInt16} {cdcOpcode : UInt8}
  {operands bs : List UInt8} (hops : operands.length ≤ 15) (hmin : 2 ≤ len)
  (hshort : len + bs.length ≤ 16) :
  Encoded (header ||| unregisteredOrBroadcast) Opcode.cdcMessage
   (appendBytes (cdcMsg len initiatorPhyAddr cdcOpcode operands (fresh header)) bs) := by
 have hstart := (encoded_cdc header len initiatorPhyAddr cdcOpcode hops
  (longEnough_mono 2 (by decide) hmin) (by omega)).toHead
 have hlen : (cdcMsg len initiatorPhyAddr cdcOpcode operands (fresh header)).len = len :=
  broadcastMsg_len _ _ _ _
 refine (hstart.appendBytes (by rw [hlen]; exact hmin) bs (by rw [hlen]; omega)).encoded
  _ (by rw [appendBytes_len, hlen]) (longEnough_mono 2 (by decide) (by omega)) hshort
  (by decide)

theorem encoded_hecSetState (info : HemiCdcHecStateInfo)
  (response : Bool) :
  Encoded (header ||| unregisteredOrBroadcast) Opcode.cdcMessage
   (hdmiCdcEncodingHecSetStateMsg initiatorPhyAddr info response (fresh header)) := by
 refine (encoded_appendBytes (by simp [word]) (by decide) ?_).setRsp _ _
 have htake := (List.takeWhile_sublist (l := info.phyAddr.toList.take info.phyAddrLen)
  fun addr => addr != 0xffff).length_le
 rw [List.length_take, Vector.length_toList] at htake
 rw [flatMap_length word 2 fun a => rfl]
 unfold getCdcMsgLen
 omega

theorem encoded_hecRequestDeactivation {phyAddr : List UInt16}
  (h : phyAddr.length = 3) (response : Bool) :
  Encoded (header ||| unregisteredOrBroadcast) Opcode.cdcMessage
   (hdmiCdcEncodingHecRequestDeactivationMsg initiatorPhyAddr phyAddr response
    (fresh header)) := by
 unfold hdmiCdcEncodingHecRequestDeactivationMsg
 rw [if_neg (by simp [h])]
 refine (encoded_appendBytes (by simp) (by decide) ?_).setRsp _ _
 rw [flatMap_length word 2 fun a => rfl, h]
 decide

/-- The header that a message is sent with: an encoding of a broadcast message sets the
destination. -/
def sentHeader (broadcast : Bool) (header : UInt8) : UInt8 :=
 bif broadcast then header ||| unregisteredOrBroadcast else header

/-- The encoding functions with their parameters, each with its operation code and whether it sets
the destination. Data has a length that the encoding does not refuse. -/
inductive Encodes : UInt8 → Bool → (HdmiCecMsg → HdmiCecMsg) → Prop where
 | activeSource (phyAddr : UInt16) :
   Encodes Opcode.activeSource true (hdmiCecEncodingActiveSourceMsg phyAddr)
 | imageViewOn :
   Encodes Opcode.imageViewOn false hdmiCecEncodingImageViewOnMsg
 | textViewOn :
   Encodes Opcode.textViewOn false hdmiCecEncodingTextViewOnMsg
 | inactiveSource (phyAddr : UInt16) :
   Encodes Opcode.inactiveSource false (hdmiCecEncodingInactiveSourceMsg phyAddr)
 | requestActiveSource (response : Bool) :
   Encodes Opcode.requestActiveSource true (hdmiCecEncodingRequestActiveSourceMsg response)
 | routingChange (orgAddr newAddr : UInt16) (response : Bool) :
   Encodes Opcode.routingChange true (hdmiCecEncodingRoutingChangeMsg orgAddr newAddr response)
 | routingInfomation (phyAddr : UInt16) :
   Encodes Opcode.routingInformation true (hdmiCecEncodingRoutingInfomationMsg phyAddr)
 | setStreamPath (phyAddr : UInt16) :
   Encodes Opcode.setStreamPath true (hdmiCecEncodingSetStreamPathMsg phyAddr)
 | standby :
   Encodes Opcode.standby false hdmiCecEncodingStandbyMsg
 | recordOff (response : Bool) :
   Encodes Opcode.recordOff false (hdmiCecEncodingRecordOffMsg response)
 | recordOn (src : HdmiCecRecordSource) (response : Bool) (h : 1 ≤ src.type ∧ src.type ≤ 5) :
   Encodes Opcode.recordOn false (hdmiCecEncodingRecordOnMsg src response)
 | recordStatus (recordStatusInfo : UInt8) :
   Encodes Opcode.recordStatus false (hdmiCecEncodingRecordStatusMsg recordStatusInfo)
 | recordTvScreen (response : Bool) :
   Encodes Opcode.recordTvScreen false (hdmiCecEncodingRecordTvScreenMsg response)
 | clearAnalogueTimer (info : HdmiCecAnalogueTimerInfo) (response : Bool) :
   Encodes Opcode.clearAnalogueTimer false (hdmiCecEncodingClearAnalogueTimerMsg info response)
 | clearDigitalTimer (info : HdmiCecDigitalTimerInfo) (response : Bool) :
   Encodes Opcode.clearDigitalTimer false (hdmiCecEncodingClearDigitalTimerMsg info response)
 | clearExternalTimer (info : HdmiCecExternalTimerInfo) (response : Bool) :
   Encodes Opcode.clearExternalTimer false (hdmiCecEncodingClearExternalTimerMsg info response)
 | setAnalogueTimer (info : HdmiCecAnalogueTimerInfo) (response : Bool) :
   Encodes Opcode.setAnalogueTimer false (hdmiCecEncodingSetAnalogueTimerMsg info response)
 | setDigitalTimer (info : HdmiCecDigitalTimerInfo) (response : Bool) :
   Encodes Opcode.setDigitalTimer false (hdmiCecEncodingSetDigitalTimerMsg info response)
 | setExternalTimer (info : HdmiCecExternalTimerInfo) (response : Bool) :
   Encodes Opcode.setExternalTimer false (hdmiCecEncodingSetExternalTimerMsg info response)
 | setTimerProgramTitle (title : ℕ → UInt8) (len : ℕ) (h : 0 < len) :
   Encodes Opcode.setTimerProgramTitle false (hdmiCecEncodingSetTimerProgramTitleMsg title len)
 | timerClearedStatus (status : UInt8) :
   Encodes Opcode.timerClearedStatus false (hdmiCecEncodingTimerClearedStatusMsg status)
 | timerStatus (status : HdmiCecTimerStatusData) (h : status.InRange) :
   Encodes Opcode.timerStatus false (hdmiCecEncodingTimerStatusMsg status)
 | cecVersion (version : UInt8) :
   Encodes Opcode.cecVersion false (hdmiCecEncodingCecVersionMsg version)
 | getCecVersion (response : Bool) :
   Encodes Opcode.getCecVersion false (hdmiCecEncodingGetCecVersionMsg response)
 | getPhyAddress (response : Bool) :
   Encodes Opcode.givePhysicalAddress false (hdmiCecEncodingGetPhyAddressMsg response)
 | getMenuLanguage (response : Bool) :
   Encodes Opcode.getMenuLanguage false (hdmiCecEncodingGetMenuLanguageMsg response)
 | reportPhyAddress (phyAddr : UInt16) (deviceType : UInt8) :
   Encodes Opcode.reportPhysicalAddress true
    (hdmiCecEncodingReportPhyAddressMsg phyAddr deviceType)
 | setMenuLanguage (language : ℕ → UInt8) (len : ℕ) (h : len = 3) :
   Encodes Opcode.setMenuLanguage true (hdmiCecEncodingSetMenuLanguageMsg language len)
 | reportFeatures (info : HdmiCecInfo) :
   Encodes Opcode.reportFeatures true (hdmiCecEncodingReportFeaturesMsg info)
 | giveFeatures (response : Bool) :
   Encodes Opcode.giveFeatures false (hdmiCecEncodingGiveFeaturesMsg response)
 | deckControl (mode : UInt8) :
   Encodes Opcode.deckControl false (hdmiCecEncodingDeckControlMsg mode)
 | deckStatus (info : UInt8) :
   Encodes Opcode.deckStatus false (hdmiCecEncodingDeckStatusMsg info)
 | giveDeckStatus (statusReq : UInt8) (response : Bool) :
   Encodes Opcode.giveDeckStatus false (hdmiCecEncodingGiveDeckStatusMsg statusReq response)
 | play (playMode : UInt8) :
   Encodes Opcode.play false (hdmiCecEncodingPlayMsg playMode)
 | giveTunerDeviceStatus (statusReq : UInt8) (response : Bool) :
   Encodes Opcode.giveTunerDeviceStatus false
    (hdmiCecEncodingGiveTunerDeviceStatusMsg statusReq response)
 | selectAnalogueService (analog : AnalogService) :
   Encodes Opcode.selectAnalogueService false (hdmiCecEncodingSelectAnalogueServiceMsg analog)
 | selectDigitalService (digital : HdmiCecDigitalServiceId) :
   Encodes Opcode.selectDigitalService false (hdmiCecEncodingSelectDigitalServiceMsg digital)
 | tunerDeviceStatus (info : HdmiCecTunerDeviceInfo) :
   Encodes Opcode.tunerDeviceStatus false (hdmiCecEncodingTunerDeviceStatusMsg info)
 | tunerStepDecrement :
   Encodes Opcode.tunerStepDecrement false hdmiCecEncodingTunerStepDecrementMsg
 | tunerStepIncrement :
   Encodes Opcode.tunerStepIncrement false hdmiCecEncodingTunerStepIncrementMsg
 | deviceVendorId (devVendorId : UInt32) :
   Encodes Opcode.deviceVendorId false (hdmiCecEncodingDeviceVendorIdMsg devVendorId)
 | giveDeviceVendorId (response : Bool) :
   Encodes Opcode.giveDeviceVendorId false (hdmiCecEncodingGiveDeviceVendorIdMsg response)
 | vendorCommand (data : ℕ → UInt8) (len : ℕ) (h : 0 < len) :
   Encodes Opcode.vendorCommand false (hdmiCecEncodingVendorCommandMsg data len)
 | vendorCommandWithId (vendorId : UInt32) (data : ℕ → UInt8) (len : ℕ) (h : 0 < len) :
   Encodes Opcode.vendorCommandWithId false
    (hdmiCecEncodingVendorCommandWithIdMsg vendorId data len)
 | vendorRemoteButtonDown (rcCode : ℕ → UInt8) (len : ℕ) (h : 0 < len) :
   Encodes Opcode.vendorRemoteButtonDown false
    (hdmiCecEncodingVendorRemoteButtonDownMsg rcCode len)
 | vendorRemoteButtonUp :
   Encodes Opcode.vendorRemoteButtonUp false hdmiCecEncodingVendorRemoteButtonUpMsg
 | setOsdString (dispControl : UInt8) (str : ℕ → UInt8) (len : ℕ) (h : 0 < len) :
   Encodes Opcode.setOsdString false (hdmiCecEncodingSetOsdStringMsg dispControl str len)
 | giveOsdName (response : Bool) :
   Encodes Opcode.giveOsdName false (hdmiCecEncodingGiveOsdNameMsg response)
 | setOsdName (name : ℕ → UInt8) (len : ℕ) (h : 0 < len) :
   Encodes Opcode.setOsdName false (hdmiCecEncodingSetOsdNameMsg name len)
 | menuRequest (menuReq : UInt8) (response : Bool) :
   Encodes Opcode.menuRequest false (hdmiCecEncodingMenuRequestMsg menuReq response)
 | menuStatus (menuStatus : UInt8) :
   Encodes Opcode.menuStatus false (hdmiCecEncodingMenuStatusMsg menuStatus)
 | userControlPrtessed (cmd : HdmiCecUiCmd) :
   Encodes Opcode.userControlPressed false (hdmiCecEncodingUserControlPrtessedMsg cmd)
 | userControlReleased :
   Encodes Opcode.userControlReleased false hdmiCecEncodingUserControlReleasedMsg
 | giveDevicePowerStatus (response : Bool) :
   Encodes Opcode.giveDevicePowerStatus false (hdmiCecEncodingGiveDevicePowerStatusMsg response)
 | reportDevicePowerStatus (powerStatus : UInt8) :
   Encodes Opcode.reportPowerStatus false (hdmiCecEncodingReportDevicePowerStatusMsg powerStatus)
 | featureAbort (opcode reason : UInt8) :
   Encodes Opcode.featureAbort false (hdmiCecEncodingFeatureAbortMsg opcode reason)
 | abort :
   Encodes Opcode.abort false hdmiCecEncodingAbortMsg
 | giveAudioStatus (response : Bool) :
   Encodes Opcode.giveAudioStatus false (hdmiCecEncodingGiveAudioStatusMsg response)
 | giveSystemAudioMode (response : Bool) :
   Encodes Opcode.giveSystemAudioModeStatus false
    (hdmiCecEncodingGiveSystemAudioModeMsg response)
 | reportAudioStatus (audioMuteStatus audioVolumeStatus : UInt8) :
   Encodes Opcode.reportAudioStatus false
    (hdmiCecEncodingReportAudioStatusMsg audioMuteStatus audioVolumeStatus)
 | requestShortAudioDescriptor (id code : ℕ → UInt8) (len : ℕ) (response : Bool) (h : 0 < len) :
   Encodes Opcode.requestShortAudioDescriptor false
    (hdmiCecEncodingRequestShortAudioDescriptorMsg id code len response)
 | reportShortAudioDescriptor (descriptor : ℕ → UInt32) (len : ℕ) (h : 0 < len) :
   Encodes Opcode.reportShortAudioDescriptor false
    (hdmiCecEncodingReportShortAudioDescriptorMsg descriptor len)
 | setSystemAudioMode (status : UInt8) :
   Encodes Opcode.setSystemAudioMode false (hdmiCecEncodingSetSystemAudioModeMsg status)
 | systemAudioModeRequest (phyAddr : UInt16) (response : Bool) :
   Encodes Opcode.systemAudioModeRequest false
    (hdmiCecEncodingSystemAudioModeRequestMsg phyAddr response)
 | systemAudioModeStatus (status : UInt8) :
   Encodes Opcode.systemAudioModeStatus false (hdmiCecEncodingSystemAudioModeStatusMsg status)
 | setAudioRate (rate : UInt8) :
   Encodes Opcode.setAudioRate false (hdmiCecEncodingSetAudioRateMsg rate)
 | initiateArc (response : Bool) :
   Encodes Opcode.initiateArc false (hdmiCecEncodingInitiateArcMsg response)
 | reportArcInitiated :
   Encodes Opcode.reportArcInitiated false hdmiCecEncodingReportArcInitiatedMsg
 | reportArcTermination :
   Encodes Opcode.reportArcTermination false hdmiCecEncodingReportArcTerminationMsg
 | requestArcInitiation (response : Bool) :
   Encodes Opcode.requestArcInitiation false (hdmiCecEncodingRequestArcInitiationMsg response)
 | requestArcTermination (response : Bool) :
   Encodes Opcode.requestArcTermination false (hdmiCecEncodingRequestArcTerminationMsg response)
 | terminateArc (response : Bool) :
   Encodes Opcode.terminateArc false (hdmiCecEncodingTerminateArcMsg response)
 | requestCurrentLatency (phyAddr : UInt16) (response : Bool) :
   Encodes Opcode.requestCurrentLatency true
    (hdmiCecEncodingRequestCurrentLatencyMsg phyAddr response)
 | reportCurrentLatency (phyAddr : UInt16) (info : HdmiCecLatencyInfo) :
   Encodes Opcode.reportCurrentLatency true (hdmiCecEncodingReportCurrentLatencyMsg phyAddr info)
 | hecInquireState (initiatorPhyAddr phyAddr1 phyAddr2 : UInt16) (response : Bool) :
   Encodes Opcode.cdcMessage true
    (hdmiCdcEncodingHecInquireStateMsg initiatorPhyAddr phyAddr1 phyAddr2 response)
 | hecReportState (initiatorPhyAddr phyAddr : UInt16) (state : HdmiCdcHecState) :
   Encodes Opcode.cdcMessage true
    (hdmiCdcEncodingHecReportStateMsg initiatorPhyAddr phyAddr state)
 | hecSetStateAdjacent (initiatorPhyAddr phyAddr : UInt16) (hecSetState : UInt8) (response :
   Bool) :
   Encodes Opcode.cdcMessage true
    (hdmiCdcEncodingHecSetStateAdjacentMsg initiatorPhyAddr phyAddr hecSetState response)
 | hecSetState (initiatorPhyAddr : UInt16) (info : HemiCdcHecStateInfo) (response : Bool) :
   Encodes Opcode.cdcMessage true (hdmiCdcEncodingHecSetStateMsg initiatorPhyAddr info response)
 | hecRequestDeactivation (initiatorPhyAddr : UInt16) (phyAddr : List UInt16) (response : Bool)
   (h : phyAddr.length = 3) :
   Encodes Opcode.cdcMessage true
    (hdmiCdcEncodingHecRequestDeactivationMsg initiatorPhyAddr phyAddr response)
 | hecNotifyAlive (initiatorPhyAddr : UInt16) :
   Encodes Opcode.cdcMessage true (hdmiCdcEncodingHecNotifyAliveMsg initiatorPhyAddr)
 | hecDiscover (initiatorPhyAddr : UInt16) (response : Bool) :
   Encodes Opcode.cdcMessage true (hdmiCdcEncodingHecDiscoverMsg initiatorPhyAddr response)
 | hpdSetState (initiatorPhyAddr : UInt16) (portNum hpdState : UInt8) (response : Bool) :
   Encodes Opcode.cdcMessage true
    (hdmiCdcEncodingHpdSetStateMsg initiatorPhyAddr portNum hpdState response)
 | hpdReportState (initiatorPhyAddr : UInt16) (hpdState errCode : UInt8) :
   Encodes Opcode.cdcMessage true
    (hdmiCdcEncodingHpdReportStateMsg initiatorPhyAddr hpdState errCode)

theorem Encodes.encoded {opcode : UInt8} {broadcast : Bool} {encode : HdmiCecMsg → HdmiCecMsg}
  (h : Encodes opcode broadcast encode) (header : UInt8) :
  Encoded (sentHeader broadcast header) opcode (encode (fresh header)) := by
 cases h with
 | activeSource phyAddr | routingInfomation phyAddr | setStreamPath phyAddr
 | reportPhyAddress phyAddr deviceType =>
  exact encoded_broadcast (by simp [word]) rfl (by decide) rfl
 | imageViewOn | textViewOn | standby | recordStatus recordStatusInfo
 | timerClearedStatus status | cecVersion version | deckControl mode | deckStatus info
 | play playMode | tunerStepDecrement | tunerStepIncrement | vendorRemoteButtonUp
 | menuStatus menuStatus | userControlReleased | reportDevicePowerStatus powerStatus
 | featureAbort opcode reason | abort | reportAudioStatus audioMuteStatus audioVolumeStatus
 | setSystemAudioMode status | systemAudioModeStatus status | setAudioRate rate
 | reportArcInitiated | reportArcTermination =>
  exact encoded_directed (by simp) rfl (by decide) rfl
 | inactiveSource phyAddr =>
  exact encoded_directed (by simp [word]) rfl (by decide) rfl
 | requestActiveSource response =>
  exact (encoded_broadcast (by simp) rfl (by decide) rfl).setRsp _ _
 | routingChange orgAddr newAddr response | requestCurrentLatency phyAddr response =>
  exact (encoded_broadcast (by simp [word]) rfl (by decide) rfl).setRsp _ _
 | recordOff response | recordTvScreen response | getCecVersion response
 | getPhyAddress response | getMenuLanguage response | giveFeatures response
 | giveDeckStatus statusReq response | giveTunerDeviceStatus statusReq response
 | giveDeviceVendorId response | giveOsdName response | menuRequest menuReq response
 | giveDevicePowerStatus response | giveAudioStatus response | giveSystemAudioMode response
 | initiateArc response | requestArcInitiation response | requestArcTermination response
 | terminateArc response =>
  exact (encoded_directed (by simp) rfl (by decide) rfl).setRsp _ _
 | recordOn src response h =>
  exact encoded_recordOn h response
 | clearAnalogueTimer info response | setAnalogueTimer info response =>
  exact (encoded_timer (by simp [AnalogService.bytes, word]) rfl rfl).setRsp _ _
 | clearDigitalTimer info response | setDigitalTimer info response =>
  exact (encoded_digitalTimer rfl rfl).setRsp _ _
 | clearExternalTimer info response | setExternalTimer info response =>
  exact (encoded_timer (by simp [word]) rfl rfl).setRsp _ _
 | setTimerProgramTitle title len h | vendorCommand data len h
 | vendorRemoteButtonDown rcCode len h | setOsdName name len h =>
  exact encoded_data h (by decide) rfl rfl
 | timerStatus status h =>
  exact encoded_timerStatus h
 | setMenuLanguage language len h =>
  subst h
  exact encoded_setMenuLanguage language
 | reportFeatures info =>
  exact encoded_reportFeatures info
 | selectAnalogueService analog =>
  exact encoded_directed (by simp [AnalogService.bytes, word]) rfl (by decide) rfl
 | selectDigitalService digital =>
  exact encoded_selectDigitalService digital
 | tunerDeviceStatus info =>
  exact encoded_tunerDeviceStatus info
 | deviceVendorId devVendorId =>
  exact encoded_directed (by simp [threeBytes]) rfl (by decide) rfl
 | vendorCommandWithId vendorId data len h | setOsdString dispControl str len h =>
  exact encoded_data h (Nat.le_refl 14) rfl rfl
 | userControlPrtessed cmd =>
  exact encoded_userControlPrtessed cmd
 | requestShortAudioDescriptor id code len response h =>
  exact encoded_requestShortAudioDescriptor id code h response
 | reportShortAudioDescriptor descriptor len h =>
  exact encoded_reportShortAudioDescriptor descriptor h
 | systemAudioModeRequest phyAddr response =>
  exact (encoded_directed (by simp [word]) rfl (by decide) rfl).setRsp _ _
 | reportCurrentLatency phyAddr info =>
  exact encoded_reportCurrentLatency phyAddr info
 | hecInquireState initiatorPhyAddr phyAddr1 phyAddr2 response
 | hecSetStateAdjacent initiatorPhyAddr phyAddr hecSetState response =>
  exact (encoded_cdc _ _ _ _ (by simp [word]) rfl (by decide)).setRsp _ _
 | hecReportState initiatorPhyAddr phyAddr state =>
  exact encoded_hecReportState initiatorPhyAddr phyAddr state
 | hecSetState initiatorPhyAddr info response =>
  exact encoded_hecSetState initiatorPhyAddr info response
 | hecRequestDeactivation initiatorPhyAddr phyAddr response h =>
  exact encoded_hecRequestDeactivation initiatorPhyAddr h response
 | hecNotifyAlive initiatorPhyAddr | hpdReportState initiatorPhyAddr hpdState errCode =>
  exact encoded_cdc _ _ _ _ (by simp) rfl (by decide)
 | hecDiscover initiatorPhyAddr response
 | hpdSetState initiatorPhyAddr portNum hpdState response =>
  exact (encoded_cdc _ _ _ _ (by simp) rfl (by decide)).setRsp _ _

def Allowed (cecVersion type : UInt8) (broadcast : Bool) : Prop :=
 if broadcast = true then
  if cecVersion < hdmiCecVersion20 then type &&& MsgType.broadcast14 ≠ 0
  else type &&& MsgType.broadcast20 ≠ 0
 else type &&& MsgType.directed ≠ 0

instance (cecVersion type : UInt8) (broadcast : Bool) :
  Decidable (Allowed cecVersion type broadcast) := by
 unfold Allowed
 infer_instance

/-- The frame is within 16 bytes and the buffer, and the receiver takes it if the entry of its
operation code allows the kind of its destination. -/
def Agrees (cecVersion opcode : UInt8) (m : HdmiCecMsg) : Prop :=
 m.len ≤ 16 ∧ m.outside = false ∧
  ∀ info ∈ hdmiCecGetMsgLenInfo opcode,
   Allowed cecVersion info.type (hdmiCecIsBroadcastMsg m) →
    hdmiCecCheckMsgLen cecVersion m m.opcode = true

/-- Whether a frame with the header is broadcast -/
def isBroadcast (header : UInt8) : Bool := header &&& 0x0f == unregisteredOrBroadcast

theorem Encoded.check (h : Encoded header opcode m) (cecVersion : UInt8) {info : HdmiCecMsgLenInfo}
  (hinfo : hdmiCecGetMsgLenInfo opcode = some info) :
  hdmiCecCheckMsgLen cecVersion m m.opcode = true ↔
   if isBroadcast header = true then
    info.type &&& MsgType.broadcast ≠ 0 ∧
     (info.type &&& MsgType.broadcast14 = 0 ∨ ¬ cecVersion < hdmiCecVersion20)
   else info.type &&& MsgType.broadcast = 0 := by
 have hbroadcast : hdmiCecIsBroadcastMsg m = isBroadcast header := by
  unfold hdmiCecIsBroadcastMsg isBroadcast
  rw [h.header_eq]
 have hmin : ¬ m.len < info.minLen := by
  have := h.long
  unfold longEnough at this
  rw [hinfo] at this
  simpa using this
 have hpos (n : UInt8) : 0 < n ↔ n ≠ 0 := UInt8.pos_iff_ne_zero
 rw [h.opcode_eq]
 unfold hdmiCecCheckMsgLen
 simp only [hinfo, if_neg hmin, hbroadcast, h.special, hpos]
 cases isBroadcast header with
 | false | true => simp

theorem broadcast_bits (type : UInt8) (h : type &&& MsgType.broadcast = 0) :
  type &&& MsgType.broadcast14 = 0 ∧ type &&& MsgType.broadcast20 = 0 := by
 constructor
 · change type &&& (MsgType.broadcast &&& MsgType.broadcast14) = 0
   rw [← UInt8.and_assoc, h, UInt8.zero_and]
 · change type &&& (MsgType.broadcast &&& MsgType.broadcast20) = 0
   rw [← UInt8.and_assoc, h, UInt8.zero_and]

/-- The encodings and the receiver agree but for two kinds: a directed frame whose entry allows to
broadcast as well, and a broadcast one whose entry allows that in CEC 1.4, for such a receiver. -/
theorem frames_agree_iff {opcode : UInt8} {broadcast : Bool} {encode : HdmiCecMsg → HdmiCecMsg}
    (h : Encodes opcode broadcast encode) (header cecVersion : UInt8) :
    Agrees cecVersion opcode (encode (fresh header)) ↔
      ∀ info ∈ hdmiCecGetMsgLenInfo opcode,
        if isBroadcast (sentHeader broadcast header) = true then
          info.type &&& MsgType.broadcast14 = 0 ∨ ¬ cecVersion < hdmiCecVersion20
        else info.type &&& MsgType.broadcast = 0 ∨ info.type &&& MsgType.directed = 0 := by
  have hframe := h.encoded header
  have hbroadcast : hdmiCecIsBroadcastMsg (encode (fresh header)) =
      isBroadcast (sentHeader broadcast header) := by
    unfold hdmiCecIsBroadcastMsg isBroadcast
    rw [hframe.header_eq]
  unfold Agrees
  simp only [hframe.short, hframe.inside, true_and, hbroadcast]
  refine forall_congr' fun info => forall_congr' fun hinfo => ?_
  rw [hframe.check cecVersion hinfo]
  have hbits := broadcast_bits info.type
  unfold Allowed
  cases isBroadcast (sentHeader broadcast header) with
  | false =>
    simp only [Bool.false_eq_true, if_false]
    by_cases hdirected : info.type &&& MsgType.directed = 0
    · simp [hdirected]
    · simp [hdirected]
  | true =>
    simp only [if_true]
    by_cases hv : cecVersion < hdmiCecVersion20
    · simp only [hv, if_true, not_true, or_false]
      by_cases h14 : info.type &&& MsgType.broadcast14 = 0
      · simp [h14]
      · simp [h14]
    · simp only [hv, if_false, not_false_eq_true, or_true, and_true, iff_true]
      intro h20 hnone
      exact h20 (hbits hnone).2

theorem frames_agree_imageViewOn :
    Agrees 5 Opcode.imageViewOn (hdmiCecEncodingImageViewOnMsg (fresh 0x40)) := by
  refine (frames_agree_iff .imageViewOn 0x40 5).mpr ?_
  intro info hinfo
  obtain rfl := Option.some.inj hinfo
  decide

/-- A directed message of a remote button, which its entry allows -/
theorem remoteButtonUp_refused :
    ¬ ∀ (opcode : UInt8) (broadcast : Bool) (encode : HdmiCecMsg → HdmiCecMsg),
      Encodes opcode broadcast encode →
        ∀ header cecVersion : UInt8, Agrees cecVersion opcode (encode (fresh header)) := by
  intro h
  have hcheck := (h _ _ _ .vendorRemoteButtonUp 0x40 6).2.2 _ rfl (by decide)
  exact absurd hcheck (by decide)

end DriversFramework.HdmiCec
