import OpenOmni.Channels.Chunks

/-! The builder's run over a text: the chunks so far and the current one, as cuts of what was read. -/
namespace OpenOmni
namespace Chunks
open List

open Builder

variable {maxLength : ℕ}

def fresh (fence : Option Fence) (chunks : List JsString) : Builder :=
  fence.elim ⟨chunks, [], 0, none⟩ fun f => append ⟨chunks, [], 0, none⟩ (reopening f)

variable {b : Builder} {fence : Option Fence} {lines done read : List JsString} {cur : Cut}
  {text part line : JsString} {cuts : List Cut}

lemma flush_eq (h : b.lines ≠ []) : b.flush = fresh b.fence (b.chunks ++ [joinLines b.lines ++ closing b.fence]) := by
  unfold flush
  rw [if_neg h]
  cases b.fence with
  | none => simp [fresh, closing]
  | some f => rfl

lemma lengthWith_eq (b : Builder) (piece : JsString) :
    b.lengthWith piece = (b.append piece).bodyLength + (closing (b.append piece).fence).length := by
  unfold lengthWith append closing
  dsimp only
  cases fenceAfterLine piece b.fence with
  | none =>
    simp only [Option.elim_none, length_nil]
    omega
  | some f =>
    simp only [Option.elim_some, length_cons]
    omega

lemma lengthWith_fresh (fence : Option Fence) (chunks : List JsString) (piece : JsString) :
    (fresh fence chunks).lengthWith piece = (fresh fence []).lengthWith piece := by
  cases fence <;> rfl

lemma lengthWith_fresh_append (fence : Option Fence) (chunks : List JsString) (piece next : JsString) :
    ((fresh fence chunks).append piece).lengthWith next = ((fresh fence []).append piece).lengthWith next := by
  cases fence <;> rfl

lemma fresh_fence (h : ∀ f ∈ fence, fenceAfterLine (reopening f) none = some f) (chunks : List JsString) :
    (fresh fence chunks).fence = fence := by
  cases fence with
  | none => rfl
  | some f => exact h f rfl

/-- The text read so far ends in `part`; its cuts are those of the chunks, and the current one. -/
structure Current (maxLength : ℕ) (done : List JsString) (part : JsString) (b : Builder) (cuts : List Cut) (cur : Cut) :
    Prop where
  placed : Placed (joinLines (done ++ [part])) (cuts ++ [cur])
  chunks : b.chunks = cuts.map Cut.chunk
  head : joinLines b.lines = cur.head
  lines : b.lines ≠ []
  clean : ∀ line ∈ b.lines, 10 ∉ line
  length : b.bodyLength = cur.head.length
  fence : b.fence = fenceOf b.lines
  fits : cur.chunk.length ≤ maxLength
  before : ∀ c ∈ cuts, c.chunk.length ≤ maxLength ∧ fenceOf (splitLines c.chunk) = none

lemma fenceOf_closed (hclean : ∀ line ∈ lines, 10 ∉ line) (hne : lines ≠ []) :
    fenceOf (splitLines (joinLines lines ++ closing (fenceOf lines))) = none := by
  cases hfence : fenceOf lines with
  | none =>
    change fenceOf (splitLines (joinLines lines ++ [])) = none
    rw [append_nil, splitLines_joinLines hclean hne, hfence]
  | some f =>
    have hok := ok_fenceOf lines f hfence
    change fenceOf (splitLines (joinLines lines ++ 10 :: f.marker)) = none
    rw [← joinLines_append hne, splitLines_joinLines, fenceOf_append, hfence, fenceAfterLine_marker hok]
    · intro line hline
      rcases mem_append.mp hline with hline | hline
      · exact hclean line hline
      · exact mem_singleton.mp hline ▸ newline_notMem_marker hok
    · exact append_ne_nil_of_left_ne_nil hne _

lemma chunk_length (hhead : joinLines b.lines = cur.head) (hclean : ∀ line ∈ b.lines, 10 ∉ line) (hne : b.lines ≠ [])
    (hlength : b.bodyLength = cur.head.length) (hfence : b.fence = fenceOf b.lines) :
    cur.chunk.length = b.bodyLength + (closing b.fence).length := by
  rw [Cut.chunk, ← hhead, splitLines_joinLines hclean hne, ← hfence, length_append, hhead, ← hlength]

namespace Current

variable {done : List JsString} {part : JsString} {b : Builder} {cuts : List Cut} {cur : Cut}

lemma chunk_eq (h : Current maxLength done part b cuts cur) : cur.chunk = joinLines b.lines ++ closing b.fence := by
  rw [Cut.chunk, ← h.head, splitLines_joinLines h.clean h.lines, ← h.fence]

lemma closed (h : Current maxLength done part b cuts cur) : fenceOf (splitLines cur.chunk) = none := by
  rw [h.chunk_eq, h.fence]
  exact fenceOf_closed h.clean h.lines

end Current

lemma Placed.extend {c : Cut} (h : Placed text (cuts ++ [c])) (more : JsString) :
    Placed (text ++ more) (cuts ++ [{ c with body := c.body ++ more }]) := by
  generalize hall : cuts ++ [c] = all at h
  cases h with
  | first =>
    obtain ⟨rfl, hc⟩ := append_inj' (hall.trans (nil_append _).symm) rfl
    obtain rfl := (List.cons.inj hc).1
    exact .first (text ++ more)
  | @next before front c' hbefore hfence hreopen =>
    obtain ⟨rfl, hc⟩ := append_inj' hall rfl
    obtain rfl := (List.cons.inj hc).1
    have hnext := Placed.next { c with body := c.body ++ more } hbefore hfence hreopen
    simpa [Cut.glue, append_assoc] using hnext

lemma Current.append (h : Current maxLength done part b cuts cur) (hline : 10 ∉ line)
    (hfits : b.lengthWith line ≤ maxLength) :
    Current maxLength (done ++ [part]) line (b.append line) cuts { cur with body := cur.body ++ 10 :: line } := by
  have hhead : joinLines (b.append line).lines = Cut.head { cur with body := cur.body ++ 10 :: line } := by
    change joinLines (b.lines ++ [line]) = _
    rw [joinLines_append h.lines, h.head]
    unfold Cut.head
    cases cur.fence <;> simp
  have hclean : ∀ l ∈ (b.append line).lines, 10 ∉ l := by
    intro l hl
    rcases mem_append.mp hl with hl | hl
    · exact h.clean l hl
    · exact mem_singleton.mp hl ▸ hline
  have hne : (b.append line).lines ≠ [] := append_ne_nil_of_left_ne_nil h.lines _
  have hlength : (b.append line).bodyLength = (Cut.head { cur with body := cur.body ++ 10 :: line }).length := by
    rw [← hhead]
    change b.bodyLength + ((if b.lines = [] then 0 else 1) + line.length) = (joinLines (b.lines ++ [line])).length
    rw [if_neg h.lines, joinLines_append h.lines, length_append, h.length, h.head, length_cons]
    omega
  have hfence : (b.append line).fence = fenceOf (b.append line).lines := by
    change fenceAfterLine line b.fence = fenceOf (b.lines ++ [line])
    rw [fenceOf_append, h.fence]
  refine ⟨?_, h.chunks, hhead, hne, hclean, hlength, hfence, ?_, h.before⟩
  · rw [joinLines_append (append_ne_nil_of_right_ne_nil _ (cons_ne_nil _ _))]
    exact h.placed.extend (10 :: line)
  · rw [chunk_length hhead hclean hne hlength hfence, ← lengthWith_eq]
    exact hfits

lemma current_fresh {piece : JsString} {midline : Bool}
    (hplaced : Placed (joinLines (done ++ [part])) (cuts ++ [⟨fence, piece, midline⟩])) (hok : ∀ f ∈ fence, f.Ok)
    (hpiece : 10 ∉ piece) (hfits : (fresh fence (cuts.map Cut.chunk)).lengthWith piece ≤ maxLength)
    (hbefore : ∀ c ∈ cuts, c.chunk.length ≤ maxLength ∧ fenceOf (splitLines c.chunk) = none) :
    Current maxLength done part ((fresh fence (cuts.map Cut.chunk)).append piece) cuts ⟨fence, piece, midline⟩ := by
  have hhead : joinLines ((fresh fence (cuts.map Cut.chunk)).append piece).lines = Cut.head ⟨fence, piece, midline⟩ := by
    cases fence with
    | none => exact intercalate_singleton
    | some f =>
      change [10].intercalate [reopening f, piece] = reopening f ++ 10 :: piece
      rw [intercalate_cons_cons, intercalate_singleton]
      simp
  have hclean : ∀ l ∈ ((fresh fence (cuts.map Cut.chunk)).append piece).lines, 10 ∉ l := by
    intro l hl
    cases fence with
    | none => exact mem_singleton.mp hl ▸ hpiece
    | some f =>
      rcases mem_cons.mp hl with rfl | hl
      · have hf := hok f rfl
        intro hmem
        rcases mem_append.mp hmem with hmem | hmem
        · exact newline_notMem_marker hf hmem
        · exact newline_notMem_info hf hmem
      · exact mem_singleton.mp hl ▸ hpiece
  have hne : ((fresh fence (cuts.map Cut.chunk)).append piece).lines ≠ [] :=
    append_ne_nil_of_right_ne_nil _ (cons_ne_nil _ _)
  have hlength : ((fresh fence (cuts.map Cut.chunk)).append piece).bodyLength =
      (Cut.head ⟨fence, piece, midline⟩).length := by
    cases fence with
    | none =>
      change 0 + (0 + piece.length) = piece.length
      omega
    | some f =>
      change 0 + (0 + (reopening f).length) + (1 + piece.length) = (reopening f ++ 10 :: piece).length
      rw [length_append, length_cons]
      omega
  have hfence : ((fresh fence (cuts.map Cut.chunk)).append piece).fence =
      fenceOf ((fresh fence (cuts.map Cut.chunk)).append piece).lines := by
    cases fence <;> rfl
  refine ⟨hplaced, ?_, hhead, hne, hclean, hlength, hfence, ?_, hbefore⟩
  · cases fence <;> rfl
  · rw [chunk_length hhead hclean hne hlength hfence, ← lengthWith_eq]
    exact hfits

/-- Behind these lines a chunk may begin with the fence that stands open. -/
structure Ready (maxLength : ℕ) (read : List JsString) (fence : Option Fence) (cuts : List Cut) : Prop where
  place : ∀ piece, Placed (joinLines (read ++ [piece])) (cuts ++ [⟨fence, piece, false⟩])
  state : fence = fenceOf read
  reopens : ∀ f ∈ fence, fenceAfterLine (reopening f) none = some f
  before : ∀ c ∈ cuts, c.chunk.length ≤ maxLength ∧ fenceOf (splitLines c.chunk) = none

section
variable (h : Current maxLength done part b cuts cur)
include h

lemma Current.before' : ∀ c ∈ cuts ++ [cur], c.chunk.length ≤ maxLength ∧ fenceOf (splitLines c.chunk) = none := by
  intro c hc
  rcases mem_append.mp hc with hc | hc
  · exact h.before c hc
  · exact mem_singleton.mp hc ▸ ⟨h.fits, h.closed⟩

lemma Current.flush : b.flush = fresh b.fence ((cuts ++ [cur]).map Cut.chunk) := by
  rw [flush_eq h.lines, h.chunks, map_append, ← h.chunk_eq]
  rfl

lemma Current.ready (hclean : ∀ line ∈ done ++ [part], 10 ∉ line)
    (hstate : b.fence = fenceOf (done ++ [part])) (hreopens : ∀ f ∈ b.fence, f.Reopens) :
    Ready maxLength (done ++ [part]) b.fence (cuts ++ [cur]) := by
  have hne : done ++ [part] ≠ [] := append_ne_nil_of_right_ne_nil _ (cons_ne_nil _ _)
  have hfaithful : ∀ f ∈ b.fence, fenceAfterLine (reopening f) none = some f :=
    fun f hf => fenceAfterLine_reopening (ok_fenceOf _ f (hstate ▸ hf)) (hreopens f hf)
  refine ⟨fun piece => ?_, hstate, hfaithful, h.before'⟩
  have hnext := Placed.next ⟨b.fence, piece, false⟩ h.placed (by
    change b.fence = fenceOf (splitLines (joinLines (done ++ [part])))
    rw [splitLines_joinLines hclean hne, hstate]) hfaithful
  rw [joinLines_append hne]
  exact hnext

end

lemma slices_run (hstate : fence = fenceOf read) (hread : ∀ line ∈ read, 10 ∉ line)
    (hreopens : ∀ f ∈ fence, fenceAfterLine (reopening f) none = some f) (rest : List JsString)
    (slice part : JsString) (chunks : List JsString) (cuts : List Cut) (cur : Cut)
    (h : Current maxLength read part ((fresh fence chunks).append slice) cuts cur) (hpart : 10 ∉ part)
    (hslice : fenceAfterLine slice fence = fence)
    (hrest : ∀ s ∈ rest, 10 ∉ s ∧ fenceAfterLine s fence = fence ∧ (fresh fence []).lengthWith s ≤ maxLength)
    (hapart : List.IsChain (fun s t => maxLength < ((fresh fence []).append s).lengthWith t) (slice :: rest)) :
    ∃ b cuts' cur', rest.foldl (pushSlice maxLength) ((fresh fence chunks).append slice) = b ∧
      Current maxLength read (part ++ rest.flatten) b cuts' cur' ∧ b.fence = fence := by
  induction rest generalizing slice part chunks cuts cur with
  | nil =>
    refine ⟨_, cuts, cur, rfl, by simpa using h, ?_⟩
    change fenceAfterLine slice (fresh fence chunks).fence = fence
    rw [fresh_fence hreopens, hslice]
  | cons next rest ih =>
    have hfence : ((fresh fence chunks).append slice).fence = fence := by
      change fenceAfterLine slice (fresh fence chunks).fence = fence
      rw [fresh_fence hreopens, hslice]
    obtain ⟨hnext, hstays, hfits⟩ := hrest next mem_cons_self
    obtain ⟨hspill, hapart⟩ := isChain_cons_cons.mp hapart
    -- the slice does not fit behind the one before
    have hpush : pushSlice maxLength ((fresh fence chunks).append slice) next =
        (fresh fence ((cuts ++ [cur]).map Cut.chunk)).append next := by
      rw [pushSlice, spill, if_pos ⟨h.lines, by rw [lengthWith_fresh_append]; exact hspill⟩, h.flush, hfence]
    have hplaced : Placed (joinLines (read ++ [part ++ next])) (cuts ++ [cur] ++ [⟨fence, next, true⟩]) := by
      have hmid := Placed.next ⟨fence, next, true⟩ h.placed (by
        change fence = fenceOf (splitLines (joinLines (read ++ [part]))).dropLast
        rw [splitLines_joinLines, dropLast_concat, hstate]
        · intro line hline
          rcases mem_append.mp hline with hline | hline
          · exact hread line hline
          · exact mem_singleton.mp hline ▸ hpart
        · exact append_ne_nil_of_right_ne_nil _ (cons_ne_nil _ _)) hreopens
      have hjoin : joinLines (read ++ [part ++ next]) = joinLines (read ++ [part]) ++ next := by
        cases read with
        | nil => simp [joinLines]
        | cons first others =>
          rw [joinLines_append (cons_ne_nil _ _), joinLines_append (cons_ne_nil _ _)]
          simp
      rw [hjoin]
      exact hmid
    have hcurrent := current_fresh hplaced (by rw [hstate]; exact ok_fenceOf read) hnext
      (by rw [lengthWith_fresh]; exact hfits) h.before'
    rw [foldl_cons, hpush, flatten_cons, ← append_assoc]
    exact ih next (part ++ next) _ _ _ hcurrent (by simp [hpart, hnext]) hstays
      (fun s hs => hrest s (mem_cons_of_mem _ hs)) hapart

lemma flatten_slices {n : ℕ} (hn : 0 < n) (fuel : ℕ) (line : JsString) (h : line.length ≤ fuel) :
    (slices n fuel line).flatten = line := by
  induction fuel generalizing line with
  | zero =>
    rw [length_eq_zero_iff.mp (Nat.le_zero.mp h)]
    rfl
  | succ fuel ih =>
    rw [slices]
    split_ifs with hnil
    · exact hnil.symm
    · have hpos := length_pos_iff.mpr hnil
      rw [flatten_cons, ih _ (by rw [length_drop]; omega), take_append_drop]

lemma Ready.push (h : Ready maxLength read fence cuts) (hmax : MIN_CHUNK_LENGTH ≤ maxLength)
    (hread : ∀ line ∈ read, 10 ∉ line) (hline : 10 ∉ line)
    (hfits : maxLength < (fresh fence (cuts.map Cut.chunk)).lengthWith line →
      SlicesFit maxLength (fresh fence (cuts.map Cut.chunk)) line) :
    ∃ b cuts' cur', (if (fresh fence (cuts.map Cut.chunk)).lengthWith line ≤ maxLength then
        (fresh fence (cuts.map Cut.chunk)).append line
      else (slicesOf maxLength line).foldl (pushSlice maxLength) (fresh fence (cuts.map Cut.chunk))) = b ∧
      Current maxLength read line b cuts' cur' ∧ b.fence = fenceOf (read ++ [line]) := by
  have hok : ∀ f ∈ fence, f.Ok := by
    rw [h.state]
    exact ok_fenceOf read
  have hfence := fresh_fence h.reopens (cuts.map Cut.chunk)
  by_cases hwhole : (fresh fence (cuts.map Cut.chunk)).lengthWith line ≤ maxLength
  · rw [if_pos hwhole]
    refine ⟨_, cuts, _, rfl, current_fresh (h.place line) hok hline hwhole h.before, ?_⟩
    change fenceAfterLine line (fresh fence (cuts.map Cut.chunk)).fence = _
    rw [hfence, fenceOf_append, h.state]
  rw [if_neg hwhole]
  have hsplit := hfits (Nat.not_le.mp hwhole)
  have hflat : (slicesOf maxLength line).flatten = line :=
    flatten_slices (by unfold MIN_CHUNK_LENGTH at *; omega) _ _ le_rfl
  have hstays := hsplit.slices
  have hapart := hsplit.apart
  have hmem : ∀ s ∈ slicesOf maxLength line, 10 ∉ s := by
    intro s hs hbreak
    exact hline (hflat ▸ mem_flatten.mpr ⟨s, hs, hbreak⟩)
  rw [hfence] at hstays
  generalize slicesOf maxLength line = pieces at hflat hstays hapart hmem ⊢
  cases pieces with
  | nil => exact absurd hflat.symm hsplit.text
  | cons first rest =>
    obtain ⟨hfirst, hfirstFits⟩ := hstays first mem_cons_self
    have hcurrent := current_fresh (h.place first) hok (hmem first mem_cons_self) hfirstFits h.before
    have hspill : pushSlice maxLength (fresh fence (cuts.map Cut.chunk)) first =
        (fresh fence (cuts.map Cut.chunk)).append first := by
      rw [pushSlice, spill, if_neg fun hcon => absurd hfirstFits (Nat.not_le.mpr hcon.2)]
    have hchain : List.IsChain (fun s t => maxLength < ((fresh fence []).append s).lengthWith t) (first :: rest) := by
      rw [isChain_iff_getElem]
      intro i hi
      rw [← lengthWith_fresh_append fence (cuts.map Cut.chunk)]
      exact hapart i _ _ (getElem?_eq_getElem _) (getElem?_eq_getElem hi)
    obtain ⟨b, cuts', cur', hb, hrun, hbf⟩ := slices_run h.state hread h.reopens rest first first _ _ _ hcurrent
      (hmem first mem_cons_self) hfirst (fun s hs => ⟨hmem s (mem_cons_of_mem _ hs),
        (hstays s (mem_cons_of_mem _ hs)).1,
        by rw [← lengthWith_fresh fence (cuts.map Cut.chunk)]; exact (hstays s (mem_cons_of_mem _ hs)).2⟩) hchain
    rw [foldl_cons, hspill]
    refine ⟨b, cuts', cur', hb, ?_, ?_⟩
    · rw [← flatten_cons, hflat] at hrun
      exact hrun
    · have hwholeStays := hsplit.stays
      rw [hfence] at hwholeStays
      rw [hbf, fenceOf_append, ← h.state, hwholeStays]

def At (maxLength : ℕ) (lines : List JsString) (b : Builder) : Prop :=
  ∃ done part cuts cur, lines = done ++ [part] ∧ Current maxLength done part b cuts cur ∧ b.fence = fenceOf lines

section
variable (h : At maxLength lines b) (hmax : MIN_CHUNK_LENGTH ≤ maxLength) (hlines : ∀ line ∈ lines, 10 ∉ line)
include h hmax hlines

lemma At.push (hline : 10 ∉ line) (hfits : PushFits maxLength b line) :
    At maxLength (lines ++ [line]) (b.push maxLength line) := by
  obtain ⟨done, part, cuts, cur, rfl, hcurrent, hstate⟩ := h
  by_cases hroom : maxLength < b.lengthWith line
  · have hspill : b.spill maxLength line = b.flush := if_pos ⟨hcurrent.lines, hroom⟩
    have hready := hcurrent.ready hlines hstate (hfits.reopens hcurrent.lines hroom)
    have hslices := hfits.slices
    rw [hspill, hcurrent.flush] at hslices
    obtain ⟨b', cuts', cur', hb, hcur, hfence⟩ := hready.push hmax hlines hline hslices
    rw [Builder.push, hspill, hcurrent.flush, hb]
    exact ⟨_, line, cuts', cur', rfl, hcur, hfence⟩
  · have hspill : b.spill maxLength line = b := if_neg fun hcon => hroom hcon.2
    have hroom := Nat.not_lt.mp hroom
    rw [Builder.push, hspill, if_pos hroom]
    refine ⟨_, line, cuts, _, rfl, hcurrent.append hline hroom, ?_⟩
    change fenceAfterLine line b.fence = _
    rw [fenceOf_append, hstate]

lemma At.run (rest : List JsString) (hrest : ∀ line ∈ rest, 10 ∉ line) (hfits : RunFits maxLength b rest) :
    At maxLength (lines ++ rest) (rest.foldl (Builder.push maxLength) b) := by
  induction rest generalizing lines b with
  | nil => simpa using h
  | cons line rest ih =>
    obtain ⟨hpush, hrun⟩ := hfits
    have hline := hrest line mem_cons_self
    rw [foldl_cons, append_cons]
    refine ih (h.push hmax hlines hline hpush) ?_ (fun l hl => hrest l (mem_cons_of_mem _ hl)) hrun
    intro l hl
    rcases mem_append.mp hl with hl | hl
    · exact hlines l hl
    · exact mem_singleton.mp hl ▸ hline

end

lemma At.finish (h : At maxLength lines b) : Chunked (joinLines lines) maxLength b.finish := by
  obtain ⟨done, part, cuts, cur, rfl, hcurrent, -⟩ := h
  have hchunks : b.finish = (cuts ++ [cur]).map Cut.chunk := by
    rw [Builder.finish, hcurrent.flush]
    cases b.fence <;> rfl
  have hbefore := hcurrent.before'
  refine ⟨⟨cuts ++ [cur], hcurrent.placed, hchunks⟩, ?_, ?_⟩
  · intro chunk hchunk
    obtain ⟨c, hc, rfl⟩ := mem_map.mp (hchunks ▸ hchunk)
    exact (hbefore c hc).1
  · intro chunk hchunk
    obtain ⟨c, hc, rfl⟩ := mem_map.mp (hchunks ▸ hchunk)
    exact (hbefore c hc).2

end Chunks
end OpenOmni
