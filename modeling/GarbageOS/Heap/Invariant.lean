import GarbageOS.Heap.Buckets

/-!
# The heap invariant, and heaps with a hole

`HeapShape s cs L`: the chunks `cs` tile the heap of `s`, and `L` are its
buckets. Every operation of `heap.c` rewrites some neighbouring chunks and
leaves the others alone, so its proof goes through a `Hole`: the heap outside
an interval `[a, e)` about which nothing is known. A hole is opened by taking
a chunk out (of its bucket, if it is free), grows over a free neighbour, admits
any write inside it, and is closed by putting chunks in.
-/

namespace GarbageOS

variable {c : Chunk} {pre post : List Chunk}

open Lib Function

/-- `L` holds exactly the free chunks of `cs`, each in its bucket. -/
def Listed (cs : List Chunk) (L : Int → List Nat) : Prop :=
  ∀ i a, a ∈ L i ↔ ∃ c ∈ cs, c.free = true ∧ c.bucket = i ∧ c.addr = a

def Heap.stop (h : Heap) : Nat := h.start + h.size

/-- The chunks `cs` outside a hole are as the heap has them. -/
structure ChunksOk (s : HeapState) (cs : List Chunk) (L : Int → List Nat) : Prop where
  inMem : ∀ c ∈ cs, c.InMem s.mem
  /-- The chunk at the end of the heap, and no other, is the wilderness. -/
  wild : ∀ c ∈ cs, c.wild = true ↔ c.stop = s.heap.stop
  wilderness : ∀ c ∈ cs, c.wild = true → c.free = true ∧ s.heap.wildernessChunk = c.addr
  /-- Neighbours are not both free. -/
  coalesced : ∀ c ∈ cs, ∀ d ∈ cs, c.stop = d.addr → c.free = true → d.free = true → False
  lists : Lists s L
  listed : Listed cs L

/-- The heap of `s` consists of the chunks `cs`, its buckets are `L`. -/
structure HeapShape (s : HeapState) (cs : List Chunk) (L : Int → List Nat) : Prop
    extends ChunksOk s cs L where
  tiles : ChunkTiles s.heap.start cs s.heap.stop
  nonempty : cs ≠ []

/-- The heap of `s` outside `[a, e)`: the chunks `pre` before it, `post` after it. -/
structure Hole (s : HeapState) (pre : List Chunk) (a e : Nat) (post : List Chunk)
    (L : Int → List Nat) : Prop extends ChunksOk s (pre ++ post) L where
  before : ChunkTiles s.heap.start pre a
  after : ChunkTiles e post s.heap.stop
  room : a + 32 ≤ e

/-- The representation invariant. -/
structure HeapInv (s : HeapState) (cs : List Chunk) (L : Int → List Nat) : Prop
    extends HeapShape s cs L where
  count : s.heap.numberOfChunks = cs.length

/-! ## Membership in the buckets -/

/-- The buckets without the free chunk `c`. -/
def dropChunk (L : Int → List Nat) (c : Chunk) : Int → List Nat :=
  update L c.bucket ((L c.bucket).erase c.addr)

theorem mem_of_mem_dropChunk {L : Int → List Nat} {i : Int} {a : Nat} (h : a ∈ dropChunk L c i) :
    a ∈ L i := by
  unfold dropChunk at h
  by_cases hi : i = c.bucket
  · subst hi
    rw [update_self] at h
    exact List.mem_of_mem_erase h
  · rwa [update_of_ne hi] at h

/-- The buckets with the free chunk `c` in front. -/
def pushChunk (L : Int → List Nat) (c : Chunk) : Int → List Nat :=
  update L c.bucket (c.addr :: L c.bucket)

theorem Listed.drop {L : Int → List Nat} (h : Listed (pre ++ c :: post) L) (hnd : ∀ i, (L i).Nodup)
    (hne : ∀ d ∈ pre ++ post, d.addr ≠ c.addr) : Listed (pre ++ post) (dropChunk L c) := by
  intro i a
  have hmem : a ∈ dropChunk L c i ↔ a ∈ L i ∧ (i = c.bucket → a ≠ c.addr) := by
    unfold dropChunk
    by_cases hi : i = c.bucket
    · subst hi
      rw [update_self, (hnd _).mem_erase_iff]
      simp [and_comm]
    · rw [update_of_ne hi]
      simp [hi]
  rw [hmem, h i a]
  constructor
  · rintro ⟨⟨d, hd, hf, rfl, rfl⟩, hn⟩
    refine ⟨d, ?_, hf, rfl, rfl⟩
    simp only [List.mem_append, List.mem_cons] at hd ⊢
    rcases hd with hd | rfl | hd
    · exact .inl hd
    · exact absurd rfl (hn rfl)
    · exact .inr hd
  · rintro ⟨d, hd, hf, rfl, rfl⟩
    refine ⟨⟨d, ?_, hf, rfl, rfl⟩, fun _ => hne d hd⟩
    simp only [List.mem_append, List.mem_cons] at hd ⊢
    exact hd.imp_right .inr

theorem Listed.push {L : Int → List Nat} (h : Listed (pre ++ post) L) (hc : c.free = true) :
    Listed (pre ++ c :: post) (pushChunk L c) := by
  intro i a
  have hmem : a ∈ pushChunk L c i ↔ (i = c.bucket ∧ a = c.addr) ∨ a ∈ L i := by
    unfold pushChunk
    by_cases hi : i = c.bucket
    · subst hi; simp
    · simp [hi]
  rw [hmem, h i a]
  simp only [List.mem_append, List.mem_cons]
  constructor
  · rintro (⟨rfl, rfl⟩ | ⟨d, hd, hd'⟩)
    · exact ⟨c, .inr (.inl rfl), hc, rfl, rfl⟩
    · exact ⟨d, hd.imp_right .inr, hd'⟩
  · rintro ⟨d, hd | rfl | hd, hf, hb, ha⟩
    · exact .inr ⟨d, .inl hd, hf, hb, ha⟩
    · exact .inl ⟨hb.symm, ha.symm⟩
    · exact .inr ⟨d, .inr hd, hf, hb, ha⟩

theorem listed_allocated {L : Int → List Nat} (hc : c.free = false) :
    Listed (pre ++ c :: post) L ↔ Listed (pre ++ post) L := by
  unfold Listed
  refine forall₂_congr fun i a => iff_congr Iff.rfl ?_
  simp only [List.mem_append, List.mem_cons]
  constructor
  · rintro ⟨d, hd | rfl | hd, hf, h⟩
    · exact ⟨d, .inl hd, hf, h⟩
    · rw [hc] at hf; cases hf
    · exact ⟨d, .inr hd, hf, h⟩
  · rintro ⟨d, hd, h⟩
    exact ⟨d, hd.imp_right .inr, h⟩

theorem mem_splice_free {d : Chunk} (hc : c.free = true) (hd : d.free = false) :
    d ∈ pre ++ c :: post ↔ d ∈ pre ++ post := by
  rw [mem_splice]
  refine ⟨fun h => h.resolve_left ?_, .inr⟩
  rintro rfl
  rw [hc] at hd; cases hd

/-! ## Chunks and relinking -/

def Apart (cs : List Chunk) : Prop :=
  ∀ c ∈ cs, ∀ d ∈ cs, c = d ∨ c.stop ≤ d.addr ∨ d.stop ≤ c.addr

section Relink

variable {s s' : HeapState} {cs : List Chunk} {L : Int → List Nat} {c : Chunk}

/-- Header and footer of a chunk are not in the user data of any chunk. -/
theorem Apart.outer_ne (h : Apart cs) (hc : c ∈ cs) {d : Chunk} (hd : d ∈ cs) {w : Nat}
    (hw : d.addr + 8 ≤ w) (hw' : w < d.footerAddr) : c.addr ≠ w ∧ c.footerAddr ≠ w := by
  unfold Chunk.footerAddr at *
  have hcd := h c hc d hd
  unfold Chunk.stop at hcd
  rcases hcd with rfl | h1 | h1 <;> omega

theorem ChunksOk.linkWord (h : ChunksOk s cs L) {w : Nat} (hw : LinkWord L w) :
    ∃ d ∈ cs, d.free = true ∧ d.addr + 8 ≤ w ∧ w < d.footerAddr := by
  obtain ⟨i, a, ha, hw⟩ := hw
  obtain ⟨d, hd, hf, -, rfl⟩ := (h.listed i a).1 ha
  have := d.size_min
  exact ⟨d, hd, hf, by omega, by unfold Chunk.footerAddr; omega⟩

theorem Apart.inMem (h : Apart cs) {m m' : Mem}
    (hm : AgreeOff (fun w => ∃ d ∈ cs, d.addr + 8 ≤ w ∧ w < d.footerAddr) m m') (hc : c ∈ cs)
    (hin : c.InMem m) : c.InMem m' :=
  hin.congr (hm _ fun ⟨_, hd, h1, h2⟩ => (h.outer_ne hc hd h1 h2).1 rfl)
    (hm _ fun ⟨_, hd, h1, h2⟩ => (h.outer_ne hc hd h1 h2).2 rfl)

theorem ChunksOk.inMem_relinked (h : ChunksOk s cs L) (ha : Apart cs)
    (hr : Relinked (LinkWord L) s s') (hc : c ∈ cs) : c.InMem s'.mem :=
  ha.inMem (hr.mem.mono fun _ hw =>
    let ⟨d, hd, _, h1, h2⟩ := h.linkWord hw
    ⟨d, hd, h1, h2⟩) hc (h.inMem c hc)

/-- The allocated chunks of `cs` have the same bytes in both memories. -/
def Untouched (cs : List Chunk) (m m' : Mem) : Prop :=
  ∀ d ∈ cs, d.free = false → ∀ w, d.addr ≤ w → w < d.stop → m' w = m w

theorem Untouched.trans {m m' m'' : Mem} (h1 : Untouched cs m m') (h2 : Untouched cs m' m'') :
    Untouched cs m m'' := fun d hd hf w hw hw' =>
  (h2 d hd hf w hw hw').trans (h1 d hd hf w hw hw')

theorem Untouched.mono {cs' : List Chunk} {m m' : Mem} (h : Untouched cs m m')
    (hsub : ∀ d ∈ cs', d.free = false → d ∈ cs) : Untouched cs' m m' :=
  fun d hd hf => h d (hsub d hd hf) hf

theorem ChunksOk.untouched_relinked (h : ChunksOk s cs L) (ha : Apart cs)
    (hr : Relinked (LinkWord L) s s') : Untouched cs s.mem s'.mem := by
  intro d hd hf w hw hw'
  refine hr.mem w fun hl => ?_
  obtain ⟨x, hx, hxf, h1, h2⟩ := h.linkWord hl
  have : x.footerAddr < x.stop := by unfold Chunk.footerAddr Chunk.stop; omega
  rcases ha d hd x hx with rfl | h3 | h3
  · rw [hf] at hxf; cases hxf
  · omega
  · omega

theorem Relinked.start_eq {P : Nat → Prop} (h : Relinked P s s') :
    s'.heap.start = s.heap.start := by rw [h.heap]

theorem Relinked.stop_eq {P : Nat → Prop} (h : Relinked P s s') : s'.heap.stop = s.heap.stop := by
  rw [h.heap]; rfl

theorem Relinked.wilderness_eq {P : Nat → Prop} (h : Relinked P s s') :
    s'.heap.wildernessChunk = s.heap.wildernessChunk := by rw [h.heap]

theorem Relinked.count_eq {P : Nat → Prop} (h : Relinked P s s') :
    s'.heap.numberOfChunks = s.heap.numberOfChunks := by rw [h.heap]

theorem Relinked.same : Relinked (fun _ => False) s s := ⟨.refl _ _, rfl⟩

/-- What holds of the chunks without `c`, once the buckets are right for them. -/
theorem ChunksOk.without {pre post : List Chunk} (h : ChunksOk s (pre ++ c :: post) L)
    {P : Nat → Prop} (hr : Relinked P s s') (hin : ∀ d ∈ pre ++ c :: post, d.InMem s'.mem)
    {L' : Int → List Nat} (hlists : Lists s' L') (hlisted : Listed (pre ++ post) L') :
    ChunksOk s' (pre ++ post) L' := by
  have hsub : ∀ d ∈ pre ++ post, d ∈ pre ++ c :: post := fun d hd => mem_splice.2 (.inr hd)
  refine ⟨fun d hd => hin d (hsub d hd), fun d hd => ?_, fun d hd hw => ?_,
    fun d hd e he => h.coalesced d (hsub d hd) e (hsub e he), hlists, hlisted⟩
  · rw [hr.stop_eq]; exact h.wild d (hsub d hd)
  · rw [hr.wilderness_eq]; exact h.wilderness d (hsub d hd) hw

theorem ChunksOk.remove {pre post : List Chunk} (h : ChunksOk s (pre ++ c :: post) L)
    (ha : Apart (pre ++ c :: post)) (hne : ∀ d ∈ pre ++ post, d.addr ≠ c.addr)
    (hc : c.free = true) :
    ∃ s', (removeFromBucketList c.addr).run s = .ok () s' ∧ Relinked (LinkWord L) s s' ∧
      ChunksOk s' (pre ++ post) (dropChunk L c) ∧ c.InMem s'.mem := by
  have hcm : c ∈ pre ++ c :: post := by simp
  have hL : c.addr ∈ L c.bucket := (h.listed _ _).2 ⟨c, hcm, hc, rfl, rfl⟩
  obtain ⟨s', hrun, hlists, hr⟩ := removeFromBucketList_listed h.lists hL
  have hin := fun d (hd : d ∈ pre ++ c :: post) => h.inMem_relinked ha hr hd
  exact ⟨s', hrun, hr, h.without hr hin hlists (h.listed.drop h.lists.nodup hne), hin c hcm⟩

end Relink

/-! ## Opening a hole -/

section Hole

variable {s : HeapState} {pre post : List Chunk} {a e : Nat} {L : Int → List Nat} {c : Chunk}
  {cs : List Chunk}

section

variable (h : HeapShape s cs L)

include h

theorem HeapShape.apart : Apart cs :=
  fun _ hc _ hd => h.tiles.apart hc hd

theorem HeapShape.eq_of_addr {d : Chunk} (hc : c ∈ cs) (hd : d ∈ cs)
    (ha : c.addr = d.addr) : c = d := by
  have := c.addr_le_stop
  have := d.addr_le_stop
  rcases h.apart c hc d hd with he | he | he
  · exact he
  all_goals omega

theorem HeapShape.exists_last : ∃ c ∈ cs, c.stop = s.heap.stop := h.tiles.exists_last h.nonempty

theorem HeapShape.stop_lt : s.heap.stop < 2 ^ 64 := by
  obtain ⟨c, -, hc⟩ := h.exists_last
  exact hc ▸ c.fits

theorem HeapShape.length_lt : cs.length < 2 ^ 59 := by
  have h1 : s.heap.start + 32 * cs.length ≤ s.heap.stop :=
    h.tiles.length_le fun c _ => c.addr_le_stop
  have h2 := h.stop_lt
  omega

end

theorem addr_ne_of_around (hpre : ∀ d ∈ pre, d.stop ≤ c.addr) (hpost : ∀ d ∈ post, c.stop ≤ d.addr) :
    ∀ d ∈ pre ++ post, d.addr ≠ c.addr := by
  intro d hd
  have := d.addr_le_stop
  have := c.addr_le_stop
  rcases List.mem_append.1 hd with hd | hd
  · have := hpre d hd; omega
  · have := hpost d hd; omega

section

variable (h : HeapShape s (pre ++ c :: post) L)

include h

theorem HeapShape.around :
    ChunkTiles s.heap.start pre c.addr ∧ ChunkTiles c.stop post s.heap.stop := by
  obtain ⟨b, h1, rfl, h2⟩ := tiles_append.1 h.tiles
  exact ⟨h1, h2⟩

theorem HeapShape.hole_allocated (hc : c.free = false) : Hole s pre c.addr c.stop post L :=
  ⟨h.toChunksOk.without .same h.inMem h.lists ((listed_allocated hc).1 h.listed), h.around.1,
    h.around.2, c.addr_le_stop⟩

theorem HeapShape.hole_free (hc : c.free = true) :
    ∃ s', (removeFromBucketList c.addr).run s = .ok () s' ∧ Relinked (LinkWord L) s s' ∧
      Hole s' pre c.addr c.stop post (dropChunk L c) ∧ c.InMem s'.mem := by
  obtain ⟨s', hrun, hr, hok, hin⟩ :=
    h.toChunksOk.remove h.apart (addr_ne_of_around h.tiles.around.1 h.tiles.around.2) hc
  refine ⟨s', hrun, hr, ⟨hok, ?_, ?_, c.addr_le_stop⟩, hin⟩
  · rw [hr.start_eq]; exact h.around.1
  · rw [hr.stop_eq]; exact h.around.2

end

section

variable (h : Hole s pre a e post L)

include h

theorem Hole.outside (hc : c ∈ pre ++ post) : (c ∈ pre ∧ c.stop ≤ a) ∨ (c ∈ post ∧ e ≤ c.addr) := by
  rcases List.mem_append.1 hc with hc | hc
  · exact .inl ⟨hc, (h.before.bounds.2 c hc).2⟩
  · exact .inr ⟨hc, (h.after.bounds.2 c hc).1⟩

theorem Hole.apart : Apart (pre ++ post) := by
  intro c hc d hd
  have hroom := h.room
  rcases h.outside hc with ⟨hc, hca⟩ | ⟨hc, hca⟩ <;> rcases h.outside hd with ⟨hd, hda⟩ | ⟨hd, hda⟩
  · exact h.before.apart hc hd
  · exact .inr (.inl (by omega))
  · exact .inr (.inr (by omega))
  · exact h.after.apart hc hd

theorem Hole.notMem_bucket {x : Nat} (hx : a ≤ x) (hxe : x < e) (i : Int) : x ∉ L i := by
  intro hm
  obtain ⟨d, hd, -, -, rfl⟩ := (h.listed i x).1 hm
  have := d.addr_le_stop
  rcases h.outside hd with ⟨-, h1⟩ | ⟨-, h1⟩ <;> omega

theorem Hole.linkWord_outside {w : Nat} (hw : LinkWord L w) : w < a ∨ e ≤ w := by
  obtain ⟨d, hd, -, h1, h2⟩ := h.linkWord hw
  have : d.footerAddr < d.stop := by unfold Chunk.footerAddr Chunk.stop; omega
  rcases h.outside hd with ⟨-, h3⟩ | ⟨-, h3⟩ <;> omega

/-! ## Writing in a hole -/

theorem Hole.keeps {m : Mem} (hm : AgreeOff (fun w => a ≤ w ∧ w < e) s.mem m) {d : Chunk}
    (hd : d ∈ pre ++ post) (w : Nat) (h1 : d.addr ≤ w) (h2 : w < d.stop) : m w = s.mem w := by
  refine hm w fun hw => ?_
  rcases h.outside hd with ⟨-, h3⟩ | ⟨-, h3⟩ <;> omega

theorem Hole.write {m : Mem} (hm : AgreeOff (fun w => a ≤ w ∧ w < e) s.mem m) :
    Hole { s with mem := m } pre a e post L := by
  have hkeep := fun d (hd : d ∈ pre ++ post) => h.keeps hm hd
  refine { h with
    inMem := fun d hd => ?_, lists := h.lists.frame rfl fun i x hx => ?_ }
  · have := d.size_min
    exact (h.inMem d hd).congr
      (hkeep d hd _ (Nat.le_refl _) (by unfold Chunk.stop; omega))
      (hkeep d hd _ (by unfold Chunk.footerAddr; omega)
        (by unfold Chunk.stop Chunk.footerAddr; omega))
  · obtain ⟨d, hd, -, -, rfl⟩ := (h.listed i x).1 hx
    have := d.addr_le_stop
    exact ⟨hkeep d hd _ (by omega) (by omega), hkeep d hd _ (by omega) (by omega),
      hkeep d hd _ (by omega) (by omega)⟩

theorem Hole.untouched {m : Mem} (hm : AgreeOff (fun w => a ≤ w ∧ w < e) s.mem m) :
    Untouched (pre ++ post) s.mem m :=
  fun _ hd _ => h.keeps hm hd

/-- A hole at the end of the heap has the wilderness pointer to itself. -/
theorem Hole.set_wilderness (he : e = s.heap.stop) (x : Nat) :
    Hole { s with heap := { s.heap with wildernessChunk := x } } pre a e post L := by
  refine { h with
    wilderness := fun d hd hw => ?_, lists := h.lists.frame rfl fun _ _ _ => ⟨rfl, rfl, rfl⟩ }
  have hstop := (h.wild d hd).1 hw
  have hroom := h.room
  have := d.addr_le_stop
  rcases h.outside hd with ⟨-, h1⟩ | ⟨-, h1⟩ <;> omega

end

theorem Hole.remove_next (h : Hole s pre a c.addr (c :: post) L) (hc : c.free = true) :
    ∃ s', (removeFromBucketList c.addr).run s = .ok () s' ∧ Relinked (LinkWord L) s s' ∧
      Hole s' pre a c.stop post (dropChunk L c) ∧ c.InMem s'.mem := by
  have hroom := h.room
  have hcm := c.addr_le_stop
  obtain ⟨s', hrun, hr, hok, hin⟩ := h.toChunksOk.remove h.apart (addr_ne_of_around
    (fun d hd => Nat.le_trans (h.before.bounds.2 d hd).2 (by omega))
    fun d hd => ((ChunkTiles.bounds h.after.2).2 d hd).1) hc
  refine ⟨s', hrun, hr, ⟨hok, ?_, ?_, by omega⟩, hin⟩
  · rw [hr.start_eq]; exact h.before
  · rw [hr.stop_eq]; exact h.after.2

theorem Hole.remove_prev (h : Hole s (pre ++ [c]) a e post L) (hc : c.free = true) :
    ∃ s', (removeFromBucketList c.addr).run s = .ok () s' ∧ Relinked (LinkWord L) s s' ∧
      Hole s' pre c.addr e post (dropChunk L c) ∧ c.InMem s'.mem := by
  have hroom := h.room
  have hcm := c.addr_le_stop
  obtain ⟨b, hpre, rfl, hca⟩ := tiles_append.1 h.before
  have hca : c.stop = a := hca
  have happ : pre ++ [c] ++ post = pre ++ c :: post := by simp
  have hok : ChunksOk s (pre ++ c :: post) L := happ ▸ h.toChunksOk
  obtain ⟨s', hrun, hr, hok', hin⟩ := hok.remove (happ ▸ h.apart) (addr_ne_of_around
    (fun d hd => ((ChunkTiles.bounds hpre).2 d hd).2)
    fun d hd => Nat.le_trans (by omega) (h.after.bounds.2 d hd).1) hc
  refine ⟨s', hrun, hr, ⟨hok', ?_, ?_, by omega⟩, hin⟩
  · rw [hr.start_eq]; exact hpre
  · rw [hr.stop_eq]; exact h.after

/-- The header and the footer of `c`. -/
def putChunk (m : Mem) (c : Chunk) : Mem := store (store m c.addr c.word) c.footerAddr c.size

theorem putChunk_inMem (m : Mem) (c : Chunk) : c.InMem (putChunk m c) := by
  have hfits := c.fits
  have hne : c.addr ≠ c.footerAddr := by unfold Chunk.footerAddr; omega
  exact ⟨by rw [putChunk, load_store_ne hne, load_store_same c.word_lt],
    load_store_same (by omega)⟩

theorem putChunk_agree (m : Mem) (c : Chunk) {P : Nat → Prop} (h1 : P c.addr) (h2 : P c.footerAddr) :
    AgreeOff P m (putChunk m c) :=
  ((AgreeOff.refl P m).store h1).store h2

/-! ## Closing a hole -/

/-- What a chunk that closes a hole has to satisfy. -/
structure Fills (s : HeapState) (c : Chunk) (pre post : List Chunk) : Prop where
  wild : c.wild = true ↔ c.stop = s.heap.stop
  wilderness : c.wild = true → c.free = true ∧ s.heap.wildernessChunk = c.addr
  prev : c.free = true → ∀ d ∈ pre, d.stop = c.addr → d.free = false
  next : c.free = true → ∀ d ∈ post, c.stop = d.addr → d.free = false

theorem Hole.fill (h : Hole s pre a e post L) (ha : a ≤ c.addr) (he : c.stop ≤ e)
    (hf : Fills s c pre post) {s' : HeapState} {L' : Int → List Nat} {P : Nat → Prop}
    (hr : Relinked P s s') (hin : ∀ d ∈ pre ++ c :: post, d.InMem s'.mem) (hlists : Lists s' L')
    (hlisted : Listed (pre ++ c :: post) L') : ChunksOk s' (pre ++ c :: post) L' := by
  refine ⟨hin, fun d hd => ?_, fun d hd hdw => ?_, fun d hd d' hd' hdd hf1 hf2 => ?_, hlists, hlisted⟩
  · rw [hr.stop_eq]
    rcases mem_splice.1 hd with rfl | hd
    · exact hf.wild
    · exact h.wild d hd
  · rw [hr.wilderness_eq]
    rcases mem_splice.1 hd with rfl | hd
    · exact hf.wilderness hdw
    · exact h.wilderness d hd hdw
  · have := d.addr_le_stop
    have := d'.addr_le_stop
    rcases mem_splice.1 hd with rfl | h1 <;> rcases mem_splice.1 hd' with rfl | h2
    · omega
    · rcases h.outside h2 with ⟨-, h3⟩ | ⟨hp, -⟩
      · omega
      · rw [hf.next hf1 d' hp hdd] at hf2; cases hf2
    · rcases h.outside h1 with ⟨hp, -⟩ | ⟨-, h3⟩
      · rw [hf.prev hf2 d hp hdd] at hf1; cases hf1
      · omega
    · exact h.coalesced d h1 d' h2 hdd hf1 hf2

theorem Hole.fill_allocated (h : Hole s pre a e post L) (ha : a ≤ c.addr) (he : c.stop ≤ e)
    (hf : Fills s c pre post) (hin : c.InMem s.mem) (hc : c.free = false) :
    ChunksOk s (pre ++ c :: post) L := by
  refine h.fill ha he hf .same (fun d hd => ?_) h.lists ((listed_allocated hc).2 h.listed)
  rcases mem_splice.1 hd with rfl | hd
  · exact hin
  · exact h.inMem d hd

theorem Hole.narrow (h : Hole s pre a e post L) (ha : c.addr = a) (hroom : c.stop + 32 ≤ e)
    (hc : c.free = false) (hw : c.wild = false) (hin : c.InMem s.mem) :
    Hole s (pre ++ [c]) c.stop e post L := by
  have hstop : c.stop < s.heap.stop := by have := h.after.bounds.1; omega
  have happ : pre ++ [c] ++ post = pre ++ c :: post := by simp
  have hfills : Fills s c pre post := ⟨by simp [hw]; omega, by simp [hw], by simp [hc], by simp [hc]⟩
  exact ⟨happ ▸ h.fill_allocated (by omega) (by omega) hfills hin hc,
    tiles_append.2 ⟨c.addr, ha ▸ h.before, rfl, rfl⟩, h.after, hroom⟩

section

variable (h : Hole s pre c.addr c.stop post L)

include h

theorem Hole.tiles_closed : ChunkTiles s.heap.start (pre ++ c :: post) s.heap.stop :=
  tiles_append.2 ⟨c.addr, h.before, rfl, h.after⟩

theorem Hole.close_allocated (hf : Fills s c pre post) (hin : c.InMem s.mem) (hc : c.free = false) :
    HeapShape s (pre ++ c :: post) L :=
  ⟨h.fill_allocated (Nat.le_refl _) (Nat.le_refl _) hf hin hc, h.tiles_closed, by simp⟩

/-- Close a hole with a free chunk, which `add_to_bucket_list` puts in its bucket. -/
theorem Hole.close_free (hf : Fills s c pre post) (hin : c.InMem s.mem) (hc : c.free = true) :
    ∃ s', (addToBucketList c.addr).run s = .ok () s' ∧
      HeapShape s' (pre ++ c :: post) (pushChunk L c) ∧
      Relinked (fun w => LinkWord L w ∨ w = c.addr + 8 ∨ w = c.addr + 16) s s' := by
  have hstop := c.addr_le_stop
  have hfits : c.addr + 32 < 2 ^ 64 := by have := c.fits; unfold Chunk.stop at hstop; omega
  have hfar : ∀ k x, x ∈ L k → x + 32 ≤ c.addr ∨ c.addr + 32 ≤ x := by
    intro k x hx
    obtain ⟨d, hd, -, -, rfl⟩ := (h.listed k x).1 hx
    have := d.addr_le_stop
    rcases h.outside hd with ⟨-, h1⟩ | ⟨-, h1⟩ <;> omega
  have hodd : load s.mem c.addr % 2 = 1 := by rw [hin.header, c.word_mod_two, hc]; rfl
  obtain ⟨s', hrun, hlists, hr⟩ := addToBucketList_spec h.lists c.bucket_range.1 c.bucket_range.2
    hfar hodd c.addr_pos hfits (Chunk.bucket_eq hin.header)
  refine ⟨s', hrun, ⟨h.fill (Nat.le_refl _) (Nat.le_refl _) hf hr (fun d hd => ?_) hlists
    (h.listed.push hc), by rw [hr.start_eq, hr.stop_eq]; exact h.tiles_closed, by simp⟩, hr⟩
  have hmem : d.InMem s.mem := by
    rcases mem_splice.1 hd with rfl | hd
    · exact hin
    · exact h.inMem d hd
  -- the new links are in the user data of chunks
  have hap : Apart (pre ++ c :: post) := fun x hx y hy => h.tiles_closed.apart hx hy
  refine hap.inMem (hr.mem.mono fun w hw => ?_) hd hmem
  rcases hw with hw | hw
  · obtain ⟨x, hx, -, h1, h2⟩ := h.linkWord hw
    exact ⟨x, mem_splice.2 (.inr hx), h1, h2⟩
  · have := c.size_min
    exact ⟨c, by simp, by omega, by unfold Chunk.footerAddr; omega⟩

end

end Hole

theorem HeapShape.set_count {s : HeapState} {cs : List Chunk} {L : Int → List Nat}
    (h : HeapShape s cs L) (n : Nat) :
    HeapShape { s with heap := { s.heap with numberOfChunks := n } } cs L :=
  { h with lists := h.lists.frame rfl fun _ _ _ => ⟨rfl, rfl, rfl⟩ }

end GarbageOS
