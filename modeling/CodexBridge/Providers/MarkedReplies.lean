import CodexBridge.Providers.MarkerLines

/-! Replies between markers. A text in which each reply is followed by the marker of its request
gives every reply back, and only the last request is done in it. Lines of noise at the end of the
text do not matter, for no such line is a marker. -/

namespace CodexBridge.Protocol

open Storage (rstripped joinLines)

/-! ### Done lines -/

theorem doneLineIndexes_append (a b : List Line) :
    doneLineIndexes (a ++ b) = doneLineIndexes a ++ (doneLineIndexes b).map (a.length + ·) := by
  have hshift : b.zipIdx (0 + a.length) = b.zipIdx.map fun p => (p.1, a.length + p.2) := by
    rw [List.zipIdx_eq_map_add, Nat.zero_add]
  unfold doneLineIndexes
  rw [List.zipIdx_append, hshift, List.filter_append, List.map_append, List.filter_map,
    List.map_map, List.map_map]
  rfl

theorem mem_doneLineIndexes {lines : List Line} {n : ℕ} :
    n ∈ doneLineIndexes lines ↔ ∃ line, lines[n]? = some line ∧ anyDoneLine line = true := by
  constructor
  · intro h
    obtain ⟨⟨line, m⟩, hp, rfl⟩ := List.mem_map.mp h
    obtain ⟨hmem, hdone⟩ := List.mem_filter.mp hp
    exact ⟨line, List.mem_zipIdx_iff_getElem?.mp hmem, hdone⟩
  · rintro ⟨line, hline, hdone⟩
    exact List.mem_map.mpr
      ⟨(line, n), List.mem_filter.mpr ⟨List.mem_zipIdx_iff_getElem?.mpr hline, hdone⟩, rfl⟩

theorem doneLineIndexes_eq_nil {lines : List Line} (h : ∀ line ∈ lines, anyDoneLine line = false) :
    doneLineIndexes lines = [] := by
  rw [List.eq_nil_iff_forall_not_mem]
  intro n hn
  obtain ⟨line, hline, hdone⟩ := mem_doneLineIndexes.mp hn
  rw [h line (List.mem_of_getElem? hline)] at hdone
  cases hdone

/-! ### Windows -/

section Window

variable {before body after : List Line} {marker : Line} {reqId : List Char}

/-- Where a reply stands: the line before it, if there is one, is a done line, and of the other
lines none ends it. -/
structure Standing (before body after : List Line) (marker : Line) (reqId : List Char) : Prop where
  opened : ∀ line ∈ before.getLast?, anyDoneLine line = true
  body_open : ∀ line ∈ body, anyDoneLine line = false
  marker_done : anyDoneLine marker = true
  marker_target : doneLine ignoreCase reqId marker = true
  alone : ∀ line ∈ before ++ after, anyDoneLine line = true → doneLine ignoreCase reqId line = false

variable (h : Standing before body after marker reqId)
include h

theorem Standing.doneLineIndexes : doneLineIndexes (before ++ (body ++ marker :: after)) =
    doneLineIndexes before ++ (before.length + body.length) ::
      (doneLineIndexes after).map (before.length + body.length + 1 + ·) := by
  have hmarker : Protocol.doneLineIndexes [marker] = [0] := by
    simp [Protocol.doneLineIndexes, h.marker_done]
  have hsplit : before ++ (body ++ marker :: after) = (before ++ body) ++ ([marker] ++ after) := by
    simp
  rw [hsplit, doneLineIndexes_append, doneLineIndexes_append, doneLineIndexes_append,
    doneLineIndexes_eq_nil h.body_open, hmarker]
  simp [Nat.add_assoc]

theorem Standing.targetDoneIndexes :
    targetDoneIndexes (before ++ (body ++ marker :: after)) reqId
      (Protocol.doneLineIndexes (before ++ (body ++ marker :: after))) =
      [before.length + body.length] := by
  have hbefore : ∀ n ∈ Protocol.doneLineIndexes before, ¬ doneLine ignoreCase reqId
      ((before ++ (body ++ marker :: after)).getD n []) = true := by
    intro n hn
    obtain ⟨line, hline, hdone⟩ := mem_doneLineIndexes.mp hn
    have hlt : n < before.length := (List.getElem?_eq_some_iff.mp hline).1
    have hother := h.alone line (List.mem_append_left _ (List.mem_of_getElem? hline)) hdone
    rw [List.getD, List.getElem?_append_left hlt, hline, Option.getD_some, hother]
    exact Bool.false_ne_true
  have hafter : ∀ n ∈ Protocol.doneLineIndexes after, ¬ doneLine ignoreCase reqId
      ((before ++ (body ++ marker :: after)).getD (before.length + body.length + 1 + n) []) =
        true := by
    intro n hn
    obtain ⟨line, hline, hdone⟩ := mem_doneLineIndexes.mp hn
    have hother := h.alone line (List.mem_append_right _ (List.mem_of_getElem? hline)) hdone
    have hsplit : before ++ (body ++ marker :: after) = (before ++ body ++ [marker]) ++ after := by
      simp
    have hlength : before.length + body.length + 1 = (before ++ body ++ [marker]).length := by
      simp [Nat.add_assoc]
    rw [List.getD, hsplit, hlength, List.getElem?_append_right (Nat.le_add_right _ _),
      Nat.add_sub_cancel_left, hline, Option.getD_some, hother]
    exact Bool.false_ne_true
  have hself : (before ++ (body ++ marker :: after)).getD (before.length + body.length) [] =
      marker := by
    rw [List.getD, List.getElem?_append_right (Nat.le_add_right _ _), Nat.add_sub_cancel_left,
      List.getElem?_append_right le_rfl, Nat.sub_self]
    rfl
  rw [Protocol.targetDoneIndexes, h.doneLineIndexes, List.filter_append, List.filter_cons, hself,
    h.marker_target, if_pos rfl, List.filter_eq_nil_iff.mpr hbefore, List.filter_eq_nil_iff.mpr]
  · rfl
  · intro n hn
    obtain ⟨m, hm, rfl⟩ := List.mem_map.mp hn
    exact hafter m hm

theorem Standing.previousDoneIndex :
    previousDoneIndex (Protocol.doneLineIndexes (before ++ (body ++ marker :: after)))
      (before.length + body.length) + 1 = before.length := by
  have hlater : ((Protocol.doneLineIndexes after).map
      (before.length + body.length + 1 + ·)).reverse.find? (· < before.length + body.length) =
      none := by
    rw [List.find?_eq_none]
    intro n hn
    obtain ⟨m, -, rfl⟩ := List.mem_map.mp (List.mem_reverse.mp hn)
    rw [decide_eq_true_iff]
    omega
  rw [Protocol.previousDoneIndex, h.doneLineIndexes, List.reverse_append, List.reverse_cons,
    List.find?_append, List.find?_append, hlater, Option.none_or]
  rcases List.eq_nil_or_concat' before with rfl | ⟨init, line, rfl⟩
  · simp [Protocol.doneLineIndexes]
  · have hdone : anyDoneLine line = true := h.opened line (by simp)
    have hlast : Protocol.doneLineIndexes (init ++ [line]) =
        Protocol.doneLineIndexes init ++ [init.length] := by
      rw [doneLineIndexes_append]
      simp [Protocol.doneLineIndexes, hdone]
    have hlt : init.length < init.length + 1 + body.length := by omega
    simp [hlast, hlt]

/-- The reply is the text between the done lines. -/
theorem Standing.extractReplyForReq {text : List Char}
    (htext : splitlines text = before ++ (body ++ marker :: after)) :
    extractReplyForReq (String.ofList text) (String.ofList reqId) =
      String.ofList (rstripped (joinLines (trimBlankEdges body))) := by
  have hwindow : ((before ++ (body ++ marker :: after)).take (before.length + body.length)).drop
      before.length = body := by
    rw [List.take_length_add_append, List.drop_left, List.take_left]
  have hstart := congrArg Int.toNat h.previousDoneIndex
  rw [Int.toNat_natCast] at hstart
  rw [Protocol.extractReplyForReq, splitLines_ofList, htext, String.toList_ofList]
  simp only [h.targetDoneIndexes, List.getLast?_singleton]
  rw [extractReplyWindow]
  simp only [hstart, hwindow]

end Window

/-! ### Marked texts -/

/-- A reply and the request it is for. None of its lines is a done line; the marker starts a line
of its own, after a line feed where the reply does not end with a line break. -/
structure Block where
  reqId : JobReqId
  body : List Char
  lineFeed : Bool
  body_open : ∀ line ∈ splitlines body, anyDoneLine line = false
  marker_starts : lineFeed = false → ∀ c ∈ body.getLast?, isLineBreak c = true

namespace Block

variable (b : Block)

def bodyText : List Char := if b.lineFeed then b.body ++ ['\n'] else b.body

def text : List Char := b.bodyText ++ markerLine b.reqId ++ ['\n']

def lines : List Line := splitlines b.bodyText ++ [markerLine b.reqId]

/-- The reply as it was written, up to its line breaks. -/
def reply : List Char := rstripped (joinLines (trimBlankEdges (splitlines b.body)))

theorem splitlines_bodyText :
    splitlines b.bodyText = splitlines b.body ∨
      splitlines b.bodyText = splitlines b.body ++ [[]] := by
  rw [bodyText]
  split
  · exact splitlines_feed b.body
  · exact .inl rfl

theorem trimBlankEdges_bodyText :
    trimBlankEdges (splitlines b.bodyText) = trimBlankEdges (splitlines b.body) := by
  rcases b.splitlines_bodyText with h | h
  · rw [h]
  · rw [h, trimBlankEdges_concat]

theorem bodyText_open : ∀ line ∈ splitlines b.bodyText, anyDoneLine line = false := by
  rcases b.splitlines_bodyText with h | h
  · rw [h]
    exact b.body_open
  · rw [h]
    exact List.forall_mem_append.mpr ⟨b.body_open, List.forall_mem_singleton.mpr rfl⟩

theorem splitlines_text_append (cs : List Char) :
    splitlines (b.text ++ cs) = b.lines ++ splitlines cs := by
  have hmarker : splitlines (markerLine b.reqId ++ ['\n'] ++ cs) =
      markerLine b.reqId :: splitlines cs := by
    rw [splitlines_feed_append, splitlines_line (markerLine_unbroken b.reqId)]
    rfl
  have hbody : splitlines (b.bodyText ++ (markerLine b.reqId ++ ['\n'] ++ cs)) =
      splitlines b.bodyText ++ splitlines (markerLine b.reqId ++ ['\n'] ++ cs) := by
    rw [bodyText]
    split
    · exact splitlines_feed_append _ _
    · case isFalse hfeed =>
      obtain ⟨init, c, hedges, -⟩ := markerLine_edges b.reqId
      refine splitlines_append fun d hd => ⟨b.marker_starts (Bool.eq_false_iff.mpr hfeed) d hd, ?_⟩
      rw [hedges]
      rintro ⟨-, hhead⟩
      cases hhead
  rw [text, List.append_assoc, List.append_assoc, ← List.append_assoc (markerLine b.reqId), hbody,
    hmarker, lines, List.append_assoc]
  rfl

end Block

def markedText (blocks : List Block) : List Char := blocks.flatMap Block.text

theorem splitlines_markedText (blocks : List Block) (cs : List Char) :
    splitlines (markedText blocks ++ cs) = blocks.flatMap Block.lines ++ splitlines cs := by
  induction blocks with
  | nil => rfl
  | cons b blocks ih =>
    rw [markedText, List.flatMap_cons, List.append_assoc, b.splitlines_text_append,
      List.flatMap_cons,
      List.append_assoc]
    exact congrArg _ ih

/-- The replies with their markers and noise at the end; where there is none, the last marker
need not end its line. -/
def Written (blocks : List Block) (noise text : List Char) : Prop :=
  text = markedText blocks ++ noise ∨ noise = [] ∧ text ++ ['\n'] = markedText blocks

theorem Written.lines {blocks : List Block} {noise text : List Char}
    (h : Written blocks noise text) :
    splitlines text = blocks.flatMap Block.lines ++ splitlines noise := by
  rcases h with rfl | ⟨rfl, h⟩
  · exact splitlines_markedText blocks noise
  · rcases List.eq_nil_or_concat' blocks with rfl | ⟨init, b, rfl⟩
    · cases text <;> cases h
    · obtain ⟨cs, c, hedges, -, hc⟩ := markerLine_edges b.reqId
      have hmarked : markedText (init ++ [b]) =
          markedText init ++ b.bodyText ++ 'C' :: cs ++ [c] ++ ['\n'] := by
        simp [markedText, Block.text, hedges]
      have htext : text = markedText init ++ b.bodyText ++ 'C' :: cs ++ [c] :=
        List.append_cancel_right (h.trans hmarked)
      have hfeed : splitlines (text ++ ['\n']) = splitlines text := by
        rw [htext]
        exact splitlines_concat hc
      have hlines := splitlines_markedText (init ++ [b]) []
      rw [List.append_nil, ← h, hfeed] at hlines
      exact hlines

/-! ### The replies of a marked text -/

theorem doneLine_of_ne {r r' : JobReqId} (h : r'.text ≠ r.text) :
    doneLine ignoreCase r'.text (markerLine r) = false := by
  rw [← Bool.not_eq_true, doneLine_markerLine ignoreCase_self ignoreCase_idChars (by decide)]
  exact h

section Marked

variable {blocks : List Block} {noise text : List Char}
  (hids : (blocks.map fun b => b.reqId.text).Nodup)
  (hnoise : ∀ line ∈ splitlines noise, isTrailingNoiseLine line = true)
  (htext : Written blocks noise text)
include hnoise

include hids in
theorem standing {before after : List Block} {b : Block} (hblocks : blocks = before ++ b :: after) :
    Standing (before.flatMap Block.lines) (splitlines b.bodyText)
      (after.flatMap Block.lines ++ splitlines noise) (markerLine b.reqId) b.reqId.text where
  opened := by
    rcases List.eq_nil_or_concat' before with rfl | ⟨init, b', rfl⟩
    · exact fun _ h => nomatch h
    · intro line hline
      have hlast : line = markerLine b'.reqId := by
        simpa [Block.lines, eq_comm] using hline
      rw [hlast, anyDoneLine_markerLine]
  body_open := b.bodyText_open
  marker_done := anyDoneLine_markerLine _
  marker_target :=
    (doneLine_markerLine ignoreCase_self ignoreCase_idChars (by decide) _ _).mpr rfl
  alone := by
    have hother : ∀ b' ∈ before ++ after, b.reqId.text ≠ b'.reqId.text := by
      intro b' hb' heq
      rw [hblocks, List.map_append, List.map_cons, List.nodup_middle, ← List.map_append] at hids
      exact (List.nodup_cons.mp hids).1 (List.mem_map.mpr ⟨b', hb', heq.symm⟩)
    have hlines : ∀ b' ∈ before ++ after, ∀ line ∈ b'.lines, anyDoneLine line = true →
        doneLine ignoreCase b.reqId.text line = false := by
      intro b' hb' line hline hdone
      rcases List.mem_append.mp hline with hline | hline
      · rw [b'.bodyText_open line hline] at hdone
        cases hdone
      · rw [List.mem_singleton.mp hline]
        exact doneLine_of_ne (hother b' hb')
    intro line hline hdone
    rcases List.mem_append.mp hline with hline | hline
    · obtain ⟨b', hb', hmem⟩ := List.mem_flatMap.mp hline
      exact hlines b' (List.mem_append_left _ hb') line hmem hdone
    · rcases List.mem_append.mp hline with hline | hline
      · obtain ⟨b', hb', hmem⟩ := List.mem_flatMap.mp hline
        exact hlines b' (List.mem_append_right _ hb') line hmem hdone
      · rw [anyDoneLine_of_noise (hnoise line hline)] at hdone
        cases hdone

include htext

include hids in
/-- Every reply comes back. -/
theorem extractReplyForReq_written {b : Block} (hb : b ∈ blocks) :
    extractReplyForReq (String.ofList text) (String.ofList b.reqId.text) =
      String.ofList b.reply := by
  obtain ⟨before, after, hblocks⟩ := List.append_of_mem hb
  have hlines := htext.lines
  rw [hblocks, List.flatMap_append, List.flatMap_cons, Block.lines] at hlines
  have hreply := (standing hids hnoise hblocks).extractReplyForReq
    (hlines.trans (by simp))
  rw [hreply, b.trimBlankEdges_bodyText, Block.reply]

/-- Only the last request is done. -/
theorem isDoneText_written (r : JobReqId) :
    isDoneText (String.ofList text) (String.ofList r.text) = true ↔
      ∃ b ∈ blocks.getLast?, b.reqId.text = r.text := by
  have hdrop : ∀ lines : List Line,
      ((lines ++ splitlines noise).map rstripped).reverse.dropWhile isTrailingNoiseLine =
        (lines.map rstripped).reverse.dropWhile isTrailingNoiseLine := by
    intro lines
    rw [List.map_append, List.reverse_append, List.dropWhile_append_of_pos]
    intro line hline
    obtain ⟨line', hline', rfl⟩ := List.mem_map.mp (List.mem_reverse.mp hline)
    rw [isTrailingNoiseLine_rstripped]
    exact hnoise line' hline'
  rw [isDoneText, String.toList_ofList, String.toList_ofList, htext.lines]
  simp only [hdrop]
  rcases List.eq_nil_or_concat' blocks with rfl | ⟨init, b, rfl⟩
  · simp
  · have hquiet : isTrailingNoiseLine (markerLine b.reqId) = false := by
      rw [← Bool.not_eq_true]
      intro hmarker
      exact absurd (anyDoneLine_markerLine b.reqId) (by simp [anyDoneLine_of_noise hmarker])
    have hhead : (((init ++ [b]).flatMap Block.lines).map rstripped).reverse =
        markerLine b.reqId ::
          ((init.flatMap Block.lines ++ splitlines b.bodyText).map rstripped).reverse := by
      simp [Block.lines]
    rw [hhead, List.dropWhile_cons_of_neg (by simp [hquiet])]
    simp only [List.head?_cons]
    rw [doneLine_markerLine exactly_self exactly_idChars (by decide)]
    simp [eq_comm]

end Marked

/-- Between their markers replies keep their lines, and nothing but the last marker counts. -/
theorem markers_give_replies {blocks : List Block} {noise text : List Char}
    (hids : (blocks.map fun b => b.reqId.text).Nodup)
    (hnoise : ∀ line ∈ splitlines noise, isTrailingNoiseLine line = true)
    (htext : Written blocks noise text) :
    (∀ b ∈ blocks, extractReplyForReq (String.ofList text) (String.ofList b.reqId.text) =
      String.ofList b.reply) ∧
    ∀ r : JobReqId, isDoneText (String.ofList text) (String.ofList r.text) = true ↔
      ∃ b ∈ blocks.getLast?, b.reqId.text = r.text :=
  ⟨fun _ => extractReplyForReq_written hids hnoise htext, isDoneText_written hnoise htext⟩

/-- A reply with a blank line at its start, then one that ends its line itself. -/
def twoBlocks : List Block :=
  [⟨⟨"job_1".toList, by decide +kernel⟩, "\nfirst ".toList, true, by decide +kernel, by simp⟩,
    ⟨⟨"job_2".toList, by decide +kernel⟩, "second\n".toList, false, by decide +kernel,
      by simp [isLineBreak_feed]⟩]

theorem markers_give_two_replies :
    let text := String.ofList (markedText twoBlocks ++ "\nALL_DONE\n".toList)
    (∀ b ∈ twoBlocks, extractReplyForReq text (String.ofList b.reqId.text) =
      String.ofList b.reply) ∧
    ∀ r : JobReqId, isDoneText text (String.ofList r.text) = true ↔
      ∃ b ∈ twoBlocks.getLast?, b.reqId.text = r.text :=
  markers_give_replies (by decide +kernel) (by decide +kernel) (.inl rfl)

/-- A carriage return before a line feed does not come back. -/
theorem carriage_return_dropped : ¬ ∀ b : Block,
    trimBlankEdges (splitlines b.body) = splitlines b.body → rstripped b.body = b.body →
      extractReplyForReq (String.ofList (markedText [b])) (String.ofList b.reqId.text) =
        String.ofList b.body := by
  intro h
  have hback := h ⟨⟨"job_1".toList, by decide +kernel⟩, "a\r\nb".toList, true, by decide +kernel,
    by simp⟩ (by decide +kernel) (by decide +kernel)
  exact absurd hback (by decide +kernel)

end CodexBridge.Protocol
