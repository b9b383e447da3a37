import GarbageOS.Vmm.Effects
import GarbageOS.Heap.Runs

/-!
# Which CPU has an APIC id

`register_local_kernel_data_cpu` links a node whose memory comes from `kmalloc`, and
`set_local_kernel_data` writes the APIC id of the CPU into it later. In between, the
node holds whatever bytes the memory held, and `get_cpu_id_from_apic_id` reads them.
The functions run under one lock, so a system of CPUs takes their critical sections
one after the other; a CPU is identified with its APIC id.
-/

namespace GarbageOS

open Lib Relation

/-- What a registration left: whose it is, the CPU id it returned and its node. -/
structure Registration where
  apicId : Nat
  cpuId : Nat
  node : Nat

/-- The kernel data, with ghosts: the registrations in their order, and the CPUs that
have set their data. -/
structure CpuRegistry where
  data : KernelData
  registered : List Registration
  ready : List Nat

def initKernelData : KM Unit :=
  modifyKernelData fun d => { d with localDataList := 0, cpuidToAllocate := 0 }

/-- The CPU when a registration calls `kmalloc`. -/
def Kernel.registering (k : Kernel) : Kernel :=
  { k.locked .kernelData with
    sh := { k.sh with kernelData := { k.sh.kernelData with
      cpuidToAllocate := (k.sh.kernelData.cpuidToAllocate + 1) % 2 ^ 32 } } }

/-- A call of one CPU. Of `kmalloc` it is used that the block it returns is no node. -/
inductive RegistryStep : CpuRegistry → CpuRegistry → Prop
  | register {s : CpuRegistry} {k k' t : Kernel} {apicId cpuId node : Nat}
      (hword : apicId < 2 ^ 32) (hnew : ∀ r ∈ s.registered, r.apicId ≠ apicId)
      (hk : k.sh.kernelData = s.data) (hmalloc : (kmalloc 40).run k.registering = .ok node t)
      (h0 : node ≠ 0) (hfresh : ∀ r ∈ s.registered, r.node ≠ node)
      (hrun : registerLocalKernelDataCpu.run k = .ok cpuId k') :
      RegistryStep s
        ⟨k'.sh.kernelData, s.registered ++ [⟨apicId, cpuId, node⟩], s.ready⟩
  | set {s : CpuRegistry} {k k' : Kernel} {r : Registration} {stack : VMemHandle}
      (hr : r ∈ s.registered) (hk : k.sh.kernelData = s.data)
      (hrun : (setLocalKernelData r.cpuId ⟨stack, r.apicId⟩).run k = .ok () k') :
      RegistryStep s ⟨k'.sh.kernelData, s.registered, r.apicId :: s.ready⟩

/-- What `init_kernel_data` leaves, when memory holds the given bytes. -/
def CpuRegistry.init (nodes : Nat → LocalKernelDataList) : CpuRegistry :=
  ⟨⟨0, 0, nodes⟩, [], []⟩

theorem run_initKernelData (k : Kernel) : ∃ k', initKernelData.run k = .ok () k' ∧
    k'.sh.kernelData = (CpuRegistry.init k.sh.kernelData.nodes).data := by
  unfold initKernelData modifyKernelData
  exact ⟨_, run_modifyShared _ k, rfl⟩

/-! ## Walking the list -/

section

variable {d : KernelData} {nodes : List Nat} {steps : Nat}

theorem run_findLocalData {test : LocalKernelDataList → Bool} (k : Kernel)
    (h : Linked (fun a => (d.nodes a).next) 0 nodes) (h0 : 0 ∉ nodes)
    (hsteps : nodes.length < steps) :
    (findLocalData d test steps (nodes.headD 0)).run k =
      .ok ((nodes.find? fun a => test (d.nodes a)).getD 0) k := by
  induction nodes generalizing steps with
  | nil =>
    obtain ⟨steps, rfl⟩ : ∃ n, steps = n + 1 := ⟨steps - 1, by simp at hsteps; omega⟩
    rw [findLocalData, if_pos (.inl rfl)]
    rfl
  | cons a rest ih =>
    obtain ⟨steps, rfl⟩ : ∃ n, steps = n + 1 := ⟨steps - 1, by simp at hsteps; omega⟩
    rw [List.mem_cons, not_or] at h0
    have hnext : (d.nodes a).next = rest.headD 0 := h.1
    rw [List.headD_cons, findLocalData]
    by_cases ht : test (d.nodes a) = true
    · rw [if_pos (.inr ht), List.find?_cons, ht]
      rfl
    · rw [if_neg (by rintro (e | e); exacts [h0.1 e.symm, ht e]), List.find?_cons, hnext]
      simp only [ht]
      exact ih h.2 h0.2 (by simpa using hsteps)

theorem run_lastLocalData (k : Kernel) (h : Linked (fun a => (d.nodes a).next) 0 nodes)
    (h0 : 0 ∉ nodes) (hne : nodes ≠ []) (hsteps : nodes.length ≤ steps) :
    (lastLocalData d steps (nodes.headD 0)).run k = .ok (nodes.getLastD 0) k := by
  induction nodes generalizing steps with
  | nil => exact absurd rfl hne
  | cons a rest ih =>
    obtain ⟨steps, rfl⟩ : ∃ n, steps = n + 1 := ⟨steps - 1, by simp at hsteps; omega⟩
    rw [List.mem_cons, not_or] at h0
    have hnext : (d.nodes a).next = rest.headD 0 := h.1
    rw [List.headD_cons, lastLocalData, hnext]
    cases rest with
    | nil => rfl
    | cons b rest =>
      have hb : b ≠ 0 := fun e => h0.2 (e ▸ List.mem_cons_self)
      rw [List.headD_cons, if_neg hb, getLastD_cons_of_ne_nil (List.cons_ne_nil b rest)]
      exact ih h.2 h0.2 (List.cons_ne_nil b rest) (by simpa using hsteps)

end

/-! ## Registering and setting -/

def CpuRegistry.nodes (s : CpuRegistry) : List Nat := s.registered.map Registration.node

/-- The list has a node for each registration, in their order, with the CPU ids 0, 1, ...;
the node of a CPU holds its APIC id once it has set its data, and before that what
memory held. -/
structure RegistryInv (bytes : Nat → LocalKernelDataList) (s : CpuRegistry) : Prop where
  head : s.data.localDataList = s.nodes.headD 0
  linked : Linked (fun a => (s.data.nodes a).next) 0 s.nodes
  nonnull : 0 ∉ s.nodes
  nodup : s.nodes.Nodup
  distinct : (s.registered.map Registration.apicId).Nodup
  word : ∀ r ∈ s.registered, r.apicId < 2 ^ 32
  ids : s.registered.map Registration.cpuId = List.range s.registered.length
  counter : s.data.cpuidToAllocate = s.registered.length % 2 ^ 32
  cpuId : ∀ r ∈ s.registered, (s.data.nodes r.node).cpuId = r.cpuId
  set : ∀ r ∈ s.registered, r.apicId ∈ s.ready → (s.data.nodes r.node).localData.apicId = r.apicId
  stale : ∀ r ∈ s.registered, r.apicId ∉ s.ready →
    (s.data.nodes r.node).localData = (bytes r.node).localData
  fresh : ∀ a, a ∉ s.nodes → s.data.nodes a = bytes a
  ready : ∀ a ∈ s.ready, a ∈ s.registered.map Registration.apicId

section

variable {bytes : Nat → LocalKernelDataList} {s : CpuRegistry} {k k' t : Kernel}
  {cpuId node : Nat} {q r : Registration}

theorem registryInv_init : RegistryInv bytes (CpuRegistry.init bytes) := by
  refine { head := rfl, linked := trivial, nonnull := ?_, nodup := List.nodup_nil
           distinct := List.nodup_nil, word := ?_, ids := rfl, counter := rfl, cpuId := ?_
           set := ?_, stale := ?_, fresh := fun _ _ => rfl, ready := ?_ }
  · exact List.not_mem_nil
  all_goals exact fun _ hr => absurd hr List.not_mem_nil

theorem RegistryInv.length_le (h : RegistryInv bytes s) : s.registered.length ≤ 2 ^ 32 := by
  rw [← List.length_map Registration.apicId]
  exact length_le_of_nodup h.distinct (List.forall_mem_map.2 h.word)

theorem RegistryInv.nodes_length_lt (h : RegistryInv bytes s) : s.nodes.length < 2 ^ 64 := by
  have := h.length_le
  rw [CpuRegistry.nodes, List.length_map]
  omega

theorem RegistryInv.length_lt {a : Nat} (h : RegistryInv bytes s) (hword : a < 2 ^ 32)
    (hnew : ∀ r ∈ s.registered, r.apicId ≠ a) : s.registered.length < 2 ^ 32 := by
  have hnd : (a :: s.registered.map Registration.apicId).Nodup := by
    refine List.nodup_cons.2 ⟨fun ha => ?_, h.distinct⟩
    obtain ⟨r, hr, he⟩ := List.mem_map.1 ha
    exact hnew r hr he
  rw [← List.length_map Registration.apicId]
  exact length_le_of_nodup hnd (List.forall_mem_cons.2 ⟨hword, List.forall_mem_map.2 h.word⟩)

/-- A new node is linked after the last one; its local data stays as it was. -/
theorem run_appendLocalData_ok {nodes : List Nat} {u : Unit}
    (hhead : k.sh.kernelData.localDataList = nodes.headD 0)
    (hlinked : Linked (fun a => (k.sh.kernelData.nodes a).next) 0 nodes) (h0 : 0 ∉ nodes)
    (hlen : nodes.length ≤ 2 ^ 64) (hmalloc : (kmalloc 40).run k = .ok node t)
    (hfresh : node ∉ nodes) (hrun : (appendLocalData cpuId).run k = .ok u k') :
    k'.sh.kernelData.localDataList = (nodes ++ [node]).headD 0 ∧
      k'.sh.kernelData.cpuidToAllocate = k.sh.kernelData.cpuidToAllocate ∧
      ∀ a, k'.sh.kernelData.nodes a =
        if a = node then ⟨cpuId, (k.sh.kernelData.nodes a).localData, 0⟩
        else if nodes.getLast? = some a then { k.sh.kernelData.nodes a with next := node }
        else k.sh.kernelData.nodes a := by
  have hdata := (kmalloc_effect hmalloc).kernelData
  unfold appendLocalData setLocalDataNode modifyKernelData at hrun
  rw [run_get_bind] at hrun
  cases nodes with
  | nil =>
    rw [if_pos (show k.sh.kernelData.localDataList = 0 from hhead), run_ok_bind hmalloc,
      run_modifyShared_bind, run_modifyShared_bind] at hrun
    obtain ⟨-, rfl⟩ := run_kassert_ok.1 hrun
    rw [hdata]
    refine ⟨rfl, rfl, fun a => ?_⟩
    show (if a = node then _ else k.sh.kernelData.nodes a) = _
    rw [if_neg (show ¬ ([] : List Nat).getLast? = some a by simp)]
  | cons b rest =>
    have hb : b ≠ 0 := fun e => h0 (e ▸ List.mem_cons_self)
    have hlast := run_lastLocalData k hlinked h0 (List.cons_ne_nil b rest) hlen
    obtain ⟨hmem, hl⟩ := (getLastD_eq_or_mem (b :: rest) 0).resolve_left (by simp)
    rw [if_neg (by rw [hhead]; exact hb), hhead, run_ok_bind hlast, run_kassert_bind,
      run_ok_bind hmalloc, run_modifyShared_bind, run_kassert_bind, run_modifyShared] at hrun
    obtain ⟨-, -, hrun⟩ := hrun
    cases hrun
    rw [hdata]
    refine ⟨hhead, rfl, fun a => ?_⟩
    by_cases ha : a = node
    · have hne : node ≠ (b :: rest).getLastD 0 := fun e => hfresh (e ▸ hmem)
      simp only [ha, if_pos, if_neg hne]
    · have hiff : ((b :: rest).getLast? = some a) = (a = (b :: rest).getLastD 0) := by
        rw [hl]
        exact propext ⟨fun e => (Option.some.inj e).symm, fun e => congrArg some e.symm⟩
      simp only [if_neg ha, hiff]

section

variable (h : RegistryInv bytes s)

include h

theorem run_registerLocalKernelDataCpu_ok (hk : k.sh.kernelData = s.data)
    (hmalloc : (kmalloc 40).run k.registering = .ok node t) (hfresh : node ∉ s.nodes)
    (hrun : registerLocalKernelDataCpu.run k = .ok cpuId k') :
    cpuId = s.data.cpuidToAllocate ∧
      k'.sh.kernelData.localDataList = (s.nodes ++ [node]).headD 0 ∧
      k'.sh.kernelData.cpuidToAllocate = (s.data.cpuidToAllocate + 1) % 2 ^ 32 ∧
      ∀ a, k'.sh.kernelData.nodes a =
        if a = node then ⟨cpuId, (s.data.nodes a).localData, 0⟩
        else if s.nodes.getLast? = some a then { s.data.nodes a with next := node }
        else s.data.nodes a := by
  obtain ⟨-, t', ht, rfl⟩ := run_withLock_ok.1 hrun
  unfold modifyKernelData at ht
  rw [run_get_bind, run_modifyShared_bind] at ht
  obtain ⟨_, t₁, happ, ht⟩ := run_bind_ok.1 ht
  cases ht
  have hlen := h.nodes_length_lt
  have hnodes : k.registering.sh.kernelData.nodes = s.data.nodes := by rw [← hk]; rfl
  have hhead : k.registering.sh.kernelData.localDataList = s.nodes.headD 0 := by
    rw [← h.head, ← hk]; rfl
  have hlist := run_appendLocalData_ok hhead (by rw [hnodes]; exact h.linked) h.nonnull hlen.le hmalloc
    hfresh happ
  rw [hnodes] at hlist
  obtain ⟨hhead, hcount, hset⟩ := hlist
  refine ⟨by rw [← hk]; rfl, hhead, ?_, hset⟩
  show t'.sh.kernelData.cpuidToAllocate = _
  rw [hcount, ← hk]
  rfl

theorem RegistryInv.register {apicId : Nat} (hword : apicId < 2 ^ 32)
    (hnew : ∀ r ∈ s.registered, r.apicId ≠ apicId) (hk : k.sh.kernelData = s.data)
    (hmalloc : (kmalloc 40).run k.registering = .ok node t) (h0 : node ≠ 0)
    (hfresh : ∀ r ∈ s.registered, r.node ≠ node)
    (hrun : registerLocalKernelDataCpu.run k = .ok cpuId k') :
    RegistryInv bytes
      ⟨k'.sh.kernelData, s.registered ++ [⟨apicId, cpuId, node⟩], s.ready⟩ := by
  have hnode : node ∉ s.nodes := by
    intro hn
    obtain ⟨r, hr, he⟩ := List.mem_map.1 hn
    exact hfresh r hr he
  obtain ⟨rfl, hhead, hcount, hset⟩ := run_registerLocalKernelDataCpu_ok h hk hmalloc hnode hrun
  have hlt := h.length_lt hword hnew
  have hne : ∀ a ∈ s.nodes, a ≠ node := fun a ha e => hnode (e ▸ ha)
  have hnodes : CpuRegistry.nodes ⟨k'.sh.kernelData,
      s.registered ++ [⟨apicId, s.data.cpuidToAllocate, node⟩], s.ready⟩ = s.nodes ++ [node] := by
    simp [CpuRegistry.nodes]
  -- what the new links leave of an older node
  have hold : ∀ a ∈ s.nodes, (k'.sh.kernelData.nodes a).cpuId = (s.data.nodes a).cpuId ∧
      (k'.sh.kernelData.nodes a).localData = (s.data.nodes a).localData := by
    intro a ha
    rw [hset a, if_neg (hne a ha)]
    split <;> exact ⟨rfl, rfl⟩
  have hmem : ∀ r ∈ s.registered, r.node ∈ s.nodes := fun r hr => List.mem_map_of_mem hr
  have hself : (k'.sh.kernelData.nodes node).localData = (bytes node).localData := by
    rw [hset node, if_pos rfl, h.fresh node hnode]
  refine { head := by rw [hnodes]; exact hhead, linked := ?_, nonnull := ?_, nodup := ?_
           distinct := ?_, word := ?_, ids := ?_, counter := ?_, cpuId := ?_, set := ?_
           stale := ?_, fresh := ?_, ready := ?_ }
  · rw [hnodes]
    refine h.linked.concat h.nodup (fun hnil => ?_) (fun a ha hlast => ?_) ?_
    · obtain ⟨hm, hl⟩ := (getLastD_eq_or_mem s.nodes 0).resolve_left fun e => hnil e.1
      show (k'.sh.kernelData.nodes _).next = node
      rw [hset, if_neg (hne _ hm), if_pos hl]
    · show (k'.sh.kernelData.nodes a).next = (s.data.nodes a).next
      rw [hset, if_neg (hne a ha), if_neg]
      intro hl
      apply hlast
      rw [List.getLastD_eq_getLast?, hl]
      rfl
    · show (k'.sh.kernelData.nodes node).next = 0
      rw [hset, if_pos rfl]
  · rw [hnodes, List.mem_append, List.mem_singleton, not_or]
    exact ⟨h.nonnull, h0.symm⟩
  · rw [hnodes]
    exact List.nodup_append.2 ⟨h.nodup, List.nodup_singleton node, fun a ha b hb e =>
      hnode (List.mem_singleton.1 hb ▸ e ▸ ha)⟩
  · rw [List.map_append]
    refine List.nodup_append.2 ⟨h.distinct, List.nodup_singleton _, fun a ha b hb e => ?_⟩
    obtain ⟨r, hr, rfl⟩ := List.mem_map.1 ha
    exact hnew r hr (e.trans (List.mem_singleton.1 hb))
  · exact List.forall_mem_append.2 ⟨h.word, List.forall_mem_singleton.2 hword⟩
  · rw [List.map_append, h.ids, List.length_append, List.length_singleton, List.range_succ,
      h.counter, Nat.mod_eq_of_lt hlt]
    rfl
  · rw [List.length_append, List.length_singleton]
    show k'.sh.kernelData.cpuidToAllocate = _
    rw [hcount, h.counter]
    omega
  · refine List.forall_mem_append.2 ⟨fun r hr => ?_, List.forall_mem_singleton.2 ?_⟩
    · exact (hold _ (hmem r hr)).1.trans (h.cpuId r hr)
    · show (k'.sh.kernelData.nodes node).cpuId = _
      rw [hset, if_pos rfl]
  · refine List.forall_mem_append.2 ⟨fun r hr hready => ?_, List.forall_mem_singleton.2 fun hready => ?_⟩
    · rw [(hold _ (hmem r hr)).2]
      exact h.set r hr hready
    · obtain ⟨q, hq, he⟩ := List.mem_map.1 (h.ready apicId hready)
      exact absurd he (hnew q hq)
  · refine List.forall_mem_append.2 ⟨fun r hr hready => ?_, List.forall_mem_singleton.2 fun _ => hself⟩
    rw [(hold _ (hmem r hr)).2]
    exact h.stale r hr hready
  · intro a ha
    rw [hnodes, List.mem_append, List.mem_singleton, not_or] at ha
    rw [hset, if_neg ha.2, if_neg fun hl => ha.1 (List.mem_of_getLast? hl)]
    exact h.fresh a ha.1
  · intro a ha
    rw [List.map_append]
    exact List.mem_append_left _ (h.ready a ha)

theorem RegistryInv.run_find (test : LocalKernelDataList → Bool) (k : Kernel) :
    (findLocalData s.data test (2 ^ 64) s.data.localDataList).run k =
      .ok (((s.registered.find? fun r => test (s.data.nodes r.node)).map
        Registration.node).getD 0) k := by
  rw [h.head, run_findLocalData k h.linked h.nonnull h.nodes_length_lt, CpuRegistry.nodes, List.find?_map]
  rfl

theorem RegistryInv.eq_of_cpuId (hq : q ∈ s.registered) (hr : r ∈ s.registered)
    (he : q.cpuId = r.cpuId) : q = r :=
  List.inj_on_of_nodup_map (h.ids ▸ List.nodup_range) hq hr he

theorem RegistryInv.eq_of_apicId (hq : q ∈ s.registered) (hr : r ∈ s.registered)
    (he : q.apicId = r.apicId) : q = r :=
  List.inj_on_of_nodup_map h.distinct hq hr he

theorem RegistryInv.eq_of_node (hq : q ∈ s.registered) (hr : r ∈ s.registered)
    (he : q.node = r.node) : q = r :=
  List.inj_on_of_nodup_map h.nodup hq hr he

theorem RegistryInv.node_ne_zero (hr : r ∈ s.registered) : r.node ≠ 0 :=
  fun e => h.nonnull (e ▸ List.mem_map_of_mem hr)

theorem RegistryInv.find_cpuId (hr : r ∈ s.registered) :
    s.registered.find? (fun q => (s.data.nodes q.node).cpuId == r.cpuId) = some r := by
  cases hf : s.registered.find? fun q => (s.data.nodes q.node).cpuId == r.cpuId with
  | none => simpa [h.cpuId r hr] using List.find?_eq_none.1 hf r hr
  | some q =>
    have hq := List.mem_of_find?_eq_some hf
    have hid := List.find?_some hf
    rw [h.cpuId q hq, beq_iff_eq] at hid
    rw [h.eq_of_cpuId hq hr hid]

/-- A lookup reads the node of the first registration that passes its test. -/
theorem RegistryInv.run_lookup {α : Type} (test : LocalKernelDataList → Bool)
    (f : LocalKernelDataList → α) (hk : k.sh.kernelData = s.data) (hlock : .kernelData ∉ k.cpu.held)
    (hf : s.registered.find? (fun q => test (s.data.nodes q.node)) = some q) :
    (withLock .kernelData do return f (← getLocalDataNode test)).run k =
      .ok (f (s.data.nodes q.node)) k := by
  refine run_withLock_ok.2 ⟨hlock, k.locked .kernelData, ?_, k.relocked.symm⟩
  unfold getLocalDataNode
  rw [bind_assoc, run_get_bind]
  change EStateM.run ((findLocalData k.sh.kernelData _ (2 ^ 64) k.sh.kernelData.localDataList
    >>= _) >>= _) _ = _
  rw [hk, bind_assoc, run_ok_bind (h.run_find _ _), hf]
  refine run_bind_ok.2 ⟨_, _, run_kassert_bind.2 ⟨?_, rfl⟩, by rw [← hk]; rfl⟩
  exact bne_iff_ne.2 (h.node_ne_zero (List.mem_of_find?_eq_some hf))

theorem run_setLocalKernelData_ok {data : LocalKernelData} {u : Unit} (hr : r ∈ s.registered)
    (hk : k.sh.kernelData = s.data) (hrun : (setLocalKernelData r.cpuId data).run k = .ok u k') :
    k'.sh.kernelData = { s.data with nodes := fun a =>
      if a = r.node then { s.data.nodes a with localData := data } else s.data.nodes a } := by
  obtain ⟨-, t, ht, rfl⟩ := run_withLock_ok.1 hrun
  rw [run_get_bind] at ht
  change EStateM.run (findLocalData k.sh.kernelData _ (2 ^ 64) k.sh.kernelData.localDataList >>= _) _
    = _ at ht
  rw [hk, run_ok_bind (h.run_find _ _), h.find_cpuId hr] at ht
  unfold setLocalDataNode modifyKernelData at ht
  rw [run_kassert_bind, run_modifyShared] at ht
  obtain ⟨-, ht⟩ := ht
  cases ht
  rw [← hk]
  rfl

theorem RegistryInv.setData {stack : VMemHandle} (hr : r ∈ s.registered)
    (hk : k.sh.kernelData = s.data)
    (hrun : (setLocalKernelData r.cpuId ⟨stack, r.apicId⟩).run k = .ok () k') :
    RegistryInv bytes ⟨k'.sh.kernelData, s.registered, r.apicId :: s.ready⟩ := by
  rw [run_setLocalKernelData_ok h hr hk hrun]
  have hother : ∀ q ∈ s.registered, q.apicId ≠ r.apicId → q.node ≠ r.node :=
    fun q hq hne he => hne (h.eq_of_node hq hr he ▸ rfl)
  refine { head := h.head, linked := ?_, nonnull := h.nonnull, nodup := h.nodup
           distinct := h.distinct, word := h.word, ids := h.ids, counter := h.counter
           cpuId := ?_, set := ?_, stale := ?_, fresh := ?_, ready := ?_ }
  · refine h.linked.congr fun a _ => ?_
    show (if a = r.node then _ else s.data.nodes a).next = _
    split <;> rfl
  · intro q hq
    show (if q.node = r.node then _ else s.data.nodes q.node).cpuId = _
    rw [← h.cpuId q hq]
    split <;> rfl
  · intro q hq hready
    show (if q.node = r.node then _ else s.data.nodes q.node).localData.apicId = _
    by_cases he : q.apicId = r.apicId
    · rw [h.eq_of_apicId hq hr he, if_pos rfl]
    · rw [if_neg (hother q hq he)]
      exact h.set q hq ((List.mem_cons.1 hready).resolve_left he)
  · intro q hq hready
    rw [List.mem_cons, not_or] at hready
    show (if q.node = r.node then _ else s.data.nodes q.node).localData = _
    rw [if_neg (hother q hq hready.1)]
    exact h.stale q hq hready.2
  · intro a ha
    show (if a = r.node then _ else s.data.nodes a) = _
    have hne : a ≠ r.node := by
      rintro rfl
      exact ha (List.mem_map_of_mem hr)
    rw [if_neg hne]
    exact h.fresh a ha
  · intro a ha
    rcases List.mem_cons.1 ha with rfl | ha
    · exact List.mem_map_of_mem hr
    · exact h.ready a ha

end

theorem RegistryStep.inv {s' : CpuRegistry} (hstep : RegistryStep s s')
    (h : RegistryInv bytes s) : RegistryInv bytes s' := by
  cases hstep with
  | register hword hnew hk hmalloc h0 hfresh hrun =>
    exact h.register hword hnew hk hmalloc h0 hfresh hrun
  | set hr hk hrun => exact h.setData hr hk hrun

theorem registryInv_of_run (hrun : ReflTransGen RegistryStep (.init bytes) s) :
    RegistryInv bytes s :=
  invariant_of_steps (fun _ _ hstep h => hstep.inv h) hrun registryInv_init

/-! ## Lookups -/

/-- A lookup by CPU id is never misled: it returns the data of that CPU, or before the CPU has
set it what the memory of its node held. -/
theorem getLocalKernelData_of_run {r : Registration}
    (hrun : ReflTransGen RegistryStep (.init bytes) s) (hr : r ∈ s.registered)
    (hk : k.sh.kernelData = s.data) (hlock : .kernelData ∉ k.cpu.held) :
    ∃ data, returned ((getLocalKernelData r.cpuId).run k) = some data ∧
      (r.apicId ∈ s.ready → data.apicId = r.apicId) ∧
      (r.apicId ∉ s.ready → data = (bytes r.node).localData) := by
  have h := registryInv_of_run hrun
  refine ⟨(s.data.nodes r.node).localData, ?_, h.set r hr, h.stale r hr⟩
  unfold getLocalKernelData
  rw [h.run_lookup (fun n => n.cpuId == r.cpuId) LocalKernelDataList.localData hk hlock
    (h.find_cpuId hr)]
  rfl

end

/-! ## Two CPUs -/

def firstCpu : Registration := ⟨3, 0, kernelVmemStart + 4104⟩

def secondCpu : Registration := ⟨7, 1, kernelVmemStart + 4160⟩

def TwoCpus (bytes : Nat → LocalKernelDataList) (k₃ : Kernel) : Prop :=
  ∃ k₀ k₁ k₂ t₀ t₁, k₀.sh.kernelData = (CpuRegistry.init bytes).data ∧
    (kmalloc 40).run k₀.registering = .ok firstCpu.node t₀ ∧
    registerLocalKernelDataCpu.run k₀ = .ok firstCpu.cpuId k₁ ∧
    (kmalloc 40).run k₁.registering = .ok secondCpu.node t₁ ∧
    registerLocalKernelDataCpu.run k₁ = .ok secondCpu.cpuId k₂ ∧
    (setLocalKernelData secondCpu.cpuId ⟨.null, secondCpu.apicId⟩).run k₂ = .ok () k₃

def twoCpus (k₃ : Kernel) : CpuRegistry :=
  ⟨k₃.sh.kernelData, [firstCpu, secondCpu], [secondCpu.apicId]⟩

theorem TwoCpus.registryRun {bytes : Nat → LocalKernelDataList} {k₃ : Kernel}
    (h : TwoCpus bytes k₃) : ReflTransGen RegistryStep (.init bytes) (twoCpus k₃) := by
  obtain ⟨k₀, k₁, k₂, t₀, t₁, hdata, hm₁, hr₁, hm₂, hr₂, hset⟩ := h
  have h₁ : RegistryStep (.init bytes) ⟨k₁.sh.kernelData, [firstCpu], []⟩ :=
    .register (by decide) (fun _ hr => absurd hr List.not_mem_nil) hdata hm₁ (by decide)
      (fun _ hr => absurd hr List.not_mem_nil) hr₁
  have h₂ : RegistryStep ⟨k₁.sh.kernelData, [firstCpu], []⟩
      ⟨k₂.sh.kernelData, [firstCpu, secondCpu], []⟩ :=
    .register (by decide) (fun r hr => by rw [List.mem_singleton.1 hr]; decide) rfl hm₂
      (by decide) (fun r hr => by rw [List.mem_singleton.1 hr]; decide) hr₂
  have h₃ : RegistryStep ⟨k₂.sh.kernelData, [firstCpu, secondCpu], []⟩ (twoCpus k₃) :=
    .set (List.mem_cons_of_mem _ List.mem_cons_self) rfl hset
  exact .tail (.tail (.single h₁) h₂) h₃

/-- Memory whose bytes hold one APIC id everywhere. -/
def staleBytes (stale : Nat) : Nat → LocalKernelDataList := fun _ => ⟨0, ⟨.null, stale⟩, 0⟩

def bootedKernel (stale : Nat) : Kernel :=
  { smallHeap with
    sh := { smallHeap.sh with kernelData := (CpuRegistry.init (staleBytes stale)).data } }

def oneRegistered (stale : Nat) : Kernel :=
  finalState (registerLocalKernelDataCpu.run (bootedKernel stale))

def twoRegistered (stale : Nat) : Kernel :=
  finalState (registerLocalKernelDataCpu.run (oneRegistered stale))

def secondReady (stale : Nat) : Kernel :=
  finalState ((setLocalKernelData secondCpu.cpuId ⟨.null, secondCpu.apicId⟩).run
    (twoRegistered stale))

theorem twoCpus_secondReady {stale : Nat}
    (hm₁ : returned ((kmalloc 40).run (bootedKernel stale).registering) = some firstCpu.node)
    (hr₁ : returned (registerLocalKernelDataCpu.run (bootedKernel stale)) = some firstCpu.cpuId)
    (hm₂ : returned ((kmalloc 40).run (oneRegistered stale).registering) = some secondCpu.node)
    (hr₂ : returned (registerLocalKernelDataCpu.run (oneRegistered stale)) = some secondCpu.cpuId)
    (hset : returned ((setLocalKernelData secondCpu.cpuId ⟨.null, secondCpu.apicId⟩).run
      (twoRegistered stale)) = some ()) :
    TwoCpus (staleBytes stale) (secondReady stale) :=
  ⟨bootedKernel stale, oneRegistered stale, twoRegistered stale, _, _, rfl,
    eq_of_returned hm₁, eq_of_returned hr₁, eq_of_returned hm₂,
    eq_of_returned hr₂, eq_of_returned hset⟩

theorem twoCpus_zero : TwoCpus (staleBytes 0) (secondReady 0) :=
  twoCpus_secondReady (by decide +kernel) (by decide +kernel) (by decide +kernel)
    (by decide +kernel) (by decide +kernel)

theorem getLocalKernelData_twoCpus : ∃ data,
    returned ((getLocalKernelData secondCpu.cpuId).run (secondReady 0)) = some data ∧
      data.apicId = secondCpu.apicId := by
  have hrun := twoCpus_zero
  have hlock : .kernelData ∉ (secondReady 0).cpu.held := by decide +kernel
  generalize secondReady 0 = k at hrun hlock ⊢
  obtain ⟨data, hret, hset, -⟩ := getLocalKernelData_of_run hrun.registryRun
    (List.mem_cons_of_mem _ List.mem_cons_self) rfl hlock
  exact ⟨data, hret, hset List.mem_cons_self⟩

end GarbageOS
