import CoherenceOperator.Footprint.Storing
import CoherenceOperator.Lib.Run

/-!
# The store and its secret

A store that is open has two versions of the resources in memory, and so has its secret. They are
changed by different code: in memory a version moves down, in the secret the bytes of one do. As long as the
calls meet `Call.Persists`, what a fresh `NewStorage` would read is what is in memory.
-/

namespace CoherenceOperator

open Effect Prog

namespace Storage

/-- An open store, and the cluster. -/
abbrev Session := Storage × World

namespace Call

/-- The next state of a session. -/
def step (op : Operator) (s : Session) (l : Env × Call) : Session := (l.2.run op l.1 s.1 s.2).2

/-- After the call, the secret says what it should. -/
def IsFaithful (op : Operator) (s : Session) (l : Env × Call) : Prop :=
  match l.2, l.2.run op l.1 s.1 s.2 with
  | store res _, (.ok _, st, u) =>
    st.latest = { res with version := s.1.latest.version + 1 } ∧ st.previous = s.1.latest ∧
      ∀ env : Env, env.Reliable → (exec (Storage.new env s.1.key) u).1 = .ok st
  | store _ _, (.error _, st, u) => st = s.1 ∧ u.store s.1.key = s.2.store s.1.key
  | resetHash owner, (.ok _, st, u) =>
    ∃ d h, owner.deref = .ok d ∧ d.generationString op = .ok h ∧ st.hash = some h ∧
      ∀ env : Env, env.Reliable → ∃ fresh, (exec (Storage.new env s.1.key) u).1 = .ok fresh ∧ fresh.hash = some h
  | resetHash _, (.error _, _, _) => True

/-- The global labels leave the hash alone. -/
def KeepsHash (op : Operator) (owner : Deployment) : Prop :=
  ∀ d h x, owner.deref = .ok d → d.generationString op = .ok h →
    (d.createGlobalLabels op).lookup LabelCoherenceHash = some x → x = h

/-- When a call is written as it should: nothing that is stored is a deletion, no global label is put in the place of the
hash, and a secret whose hash is set has labels. -/
def Persists (op : Operator) (s : Session) (l : Env × Call) : Prop :=
  match l.2 with
  | store res owner => (∀ r ∈ res.items, r.isPresent) ∧ KeepsHash op owner
  | resetHash _ => ∀ secret, s.2.store s.1.key = some secret → secret.metadata.labels ≠ ∅

end Call

/-- What is in memory was stored. -/
structure InSync (s : Session) : Prop where
  latest : (stored s.1.key s.2).latest = s.1.latest
  previous : (stored s.1.key s.2).previous = s.1.previous

section

variable {op : Operator} {env : Env} {w u : World} {st st' : Storage} {key : NamespacedName} {owner : Deployment}
  {res : Resources}

theorem Labels.set_ne_empty {labels : Labels} {k v : String} : labels.set k v ≠ ∅ := by
  intro h
  have hk : k ∈ labels.set k v := Finmap.mem_insert.2 (.inl rfl)
  rw [h] at hk
  exact Finmap.notMem_empty hk

/-- A fresh store reads what is stored. -/
theorem exec_new (h : env.Reliable) : (exec (Storage.new env key) w).1 = .ok (stored key w) := by
  rw [Storage.new, exec_bind, getSecret, exec_read, World.answer_eq_ok _ _ h]
  rfl

/-- A store that was opened holds what is stored. -/
theorem exec_new_eq_ok (h : exec (Storage.new env key) w = (.ok st, u)) :
    st = stored key w ∧ u = w.sent ⟨.get, .secret, key⟩ := by
  rw [Storage.new, exec_bind_eq_ok] at h
  obtain ⟨secret, v, hget, hload⟩ := h
  rw [getSecret, exec_read, Prod.mk.injEq] at hget
  obtain ⟨hsecret, rfl⟩ := hget
  cases hload
  cases ha : w.answer ⟨.get, .secret, key⟩ env with
  | error e =>
    rw [ha] at hsecret
    cases hsecret
  | ok _ =>
    rw [ha] at hsecret
    cases hsecret
    exact ⟨rfl, rfl⟩

theorem key_stored : (stored key w).key = key := by
  rw [stored]
  cases w.store key <;> rfl

/-- A version without deletions is stored as it is. -/
theorem marshal_eq_self (h : ∀ r ∈ res.items, r.isPresent) : marshal res = res := by
  rw [marshal, List.filter_eq_self.2 h]

/-- Notes and the call itself leave the secret alone. -/
theorem store_eq_of_path {P : Act → Prop} (p : Path P w u)
    (hP : ∀ a, P a → a.IsNote ∨ ∃ owner h res, a = .store owner h res) : u.store key = w.store key := by
  have hkeep : ∀ a (x : World), P a → (Acts.act a x).stores = x.stores ∧ (Acts.act a x).objects = x.objects := by
    intro a x ha
    rcases hP a ha with hn | ⟨owner, h, res, rfl⟩
    · exact ⟨hn.stores, hn.objects⟩
    · exact ⟨rfl, rfl⟩
  have hstores : u.stores = w.stores := p.unchanged fun a x ha => (hkeep a x ha).1
  have hobjects : u.objects = w.objects := p.unchanged fun a x ha => (hkeep a x ha).2
  simp only [World.store, hstores, hobjects]

/-- `Store` without a hash fails before it does anything. -/
theorem wp_store_of_error (hnone : ∀ d h, owner.deref = .ok d → d.generationString op ≠ .ok h) :
    Wp (st.store op env res owner) (Wp.Ends (fun _ _ => False) fun u => u = w.sent ⟨.get, .secret, st.key⟩) w := by
  refine wp_getSecret_bind (fun _ => rfl) ?_
  refine Wp.outcome_bind (fun d hd => ?_) fun _ _ => rfl
  refine Wp.outcome_bind (fun h hh => ?_) fun _ _ => rfl
  exact absurd hh (hnone d h hd)

/-- **`Store`**: what is stored is in memory, or nothing has changed. -/
theorem wp_store_persists (hpresent : ∀ r ∈ res.items, r.isPresent) (howner : Call.KeepsHash op owner)
    (hlatest : (stored st.key w).latest = st.latest) :
    Wp (st.store op env res owner) (Wp.Ends
      (fun st' u => st'.latest = st.next res ∧ st'.previous = st.latest ∧ stored st.key u = st')
      (fun u => u.store st.key = w.store st.key)) w := by
  by_cases hnone : ∀ d h, owner.deref = .ok d → d.generationString op ≠ .ok h
  · refine Wp.mono (wp_store_of_error hnone) fun r u hu => ?_
    cases r with
    | ok _ => exact hu.elim
    | error _ =>
      rw [Wp.ends_error] at hu ⊢
      rw [hu]
      rfl
  · push Not at hnone
    obtain ⟨d, h, hd, hh⟩ := hnone
    refine Wp.mono (wp_store rfl hd hh) fun r u hu => ?_
    cases r with
    | ok st' =>
      obtain ⟨rfl, hsaved⟩ := hu
      refine ⟨rfl, rfl, Storage.ext key_stored ?_ ?_ ?_⟩
      · exact hsaved.latest.trans (marshal_eq_self hpresent)
      · exact hsaved.previous.trans hlatest
      · rw [hsaved.hash, lookup_setAll_set]
        cases hglobal : (d.createGlobalLabels op).lookup LabelCoherenceHash with
        | none => rfl
        | some x => rw [howner d h x hd hh hglobal, Option.getD_some]
    | error _ =>
      refine store_eq_of_path hu fun a ha => ha.imp_right ?_
      rintro rfl
      exact ⟨_, _, _, rfl⟩

/-- **`ResetHash`**, when it saves the secret: the versions stay, and the hash is that of a secret with labels. -/
theorem wp_save_withHash {o : Owner} {h : String}
    (hlabels : ∀ secret, w.store key = some secret → secret.metadata.labels ≠ ∅) :
    Wp (save env key o (withHash h ((w.store key).getD (createSecretStruct key)))) (Wp.Ends
      (fun _ u => (stored key u).latest = (stored key w).latest ∧ (stored key u).previous = (stored key w).previous ∧
        (stored key u).hash = some h)
      (fun u => u.store key = w.store key)) (w.sent ⟨.get, .secret, key⟩) := by
  have hne : ((w.store key).getD (createSecretStruct key)).metadata.labels ≠ ∅ := by
    cases hs : w.store key with
    | none =>
      show (∅ : Labels).set "coherence-storage" "true" ≠ ∅
      exact Labels.set_ne_empty
    | some secret => exact hlabels secret hs
  refine Wp.mono (wp_save (S := fun _ => False) key_getD_createSecretStruct) fun r u hu => ?_
  cases r with
  | ok _ =>
    have hu : Saved key _ _ _ _ _ u := hu
    refine ⟨hu.latest.trans latest_getD_createSecretStruct, hu.previous.trans previous_getD_createSecretStruct, ?_⟩
    rw [hu.hash, withHash]
    dsimp only
    rw [if_neg hne, Labels.set, Finmap.lookup_insert]
  | error _ =>
    have hu : Path Act.IsNote (w.sent ⟨.get, .secret, key⟩) u := hu
    exact (store_eq_of_path hu fun a ha => .inl ha).trans rfl

namespace Call

/-- **A call** that persists what it should leaves the store in sync with its secret. -/
theorem step_spec {s : Session} {l : Env × Call} (hs : InSync s) (hl : Persists op s l) :
    IsFaithful op s l ∧ InSync (step op s l) := by
  obtain ⟨st, w⟩ := s
  obtain ⟨env, c⟩ := l
  cases c with
  | store res owner =>
    have hspec : Wp (st.store op env res owner) _ w := wp_store_persists hl.1 hl.2 hs.latest
    rcases hx : exec (st.store op env res owner) w with ⟨e | st', u⟩
    · have hu : u.store st.key = w.store st.key := hspec.elim hx
      have hrun : run op env (store res owner) st w = (.error e, st, u) := by rw [run, hx]
      have hstored : stored st.key u = stored st.key w := by rw [stored, hu, stored]
      refine ⟨?_, ?_, ?_⟩
      · simp only [IsFaithful, hrun]
        exact ⟨trivial, hu⟩
      · simp only [step, hrun, hstored, hs.latest]
      · simp only [step, hrun, hstored, hs.previous]
    · obtain ⟨hlatest, hprevious, hstored⟩ := hspec.elim hx
      have hrun : run op env (store res owner) st w = (.ok (), st', u) := by rw [run, hx]
      have hkey : st'.key = st.key := by rw [← hstored, key_stored]
      refine ⟨?_, ?_, ?_⟩
      · simp only [IsFaithful, hrun]
        refine ⟨hlatest, hprevious, fun env' henv => ?_⟩
        rw [exec_new henv, hstored]
      · simp only [step, hrun, hkey, hstored]
      · simp only [step, hrun, hkey, hstored]
  | resetHash owner =>
    -- what is in memory is the same but for the hash, whether or not the secret is saved
    have hstay : ∀ {st' : Storage} {u : World}, st'.key = st.key → st'.latest = st.latest →
        st'.previous = st.previous → u.store st.key = w.store st.key → InSync (st', u) := by
      intro st' u hkey hlatest hprevious hu
      have hstored : stored st.key u = stored st.key w := by rw [stored, hu, stored]
      refine ⟨?_, ?_⟩
      · rw [hkey, hstored, hs.latest, hlatest]
      · rw [hkey, hstored, hs.previous, hprevious]
    rcases hx : exec (st.setHash op env owner) w with ⟨e | ⟨st', o, secret⟩, u⟩
    · have hu : u = w.sent ⟨.get, .secret, st.key⟩ := (wp_setHash rfl).elim hx
      have hrun : run op env (resetHash owner) st w = (.error e, st, u) := by rw [run, hx]
      simp only [IsFaithful, step, hrun]
      exact ⟨trivial, hstay rfl rfl rfl (by rw [hu]; rfl)⟩
    · obtain ⟨rfl, d, h, hd, hh, ⟨⟩⟩ := (wp_setHash rfl).elim hx
      rcases hy : exec (save env st.key d.owner (withHash h ((w.store st.key).getD (createSecretStruct st.key))))
        (w.sent ⟨.get, .secret, st.key⟩) with ⟨e | _, v⟩
      · have hv : v.store st.key = w.store st.key := (wp_save_withHash hl).elim hy
        have hrun : run op env (resetHash owner) st w = (.error e, { st with hash := some h }, v) := by
          simp only [run, hx, hy]
        simp only [IsFaithful, step, hrun]
        exact ⟨trivial, hstay rfl rfl rfl hv⟩
      · obtain ⟨hlatest, hprevious, hhash⟩ := (wp_save_withHash hl).elim hy
        have hrun : run op env (resetHash owner) st w = (.ok (), { st with hash := some h }, v) := by
          simp only [run, hx, hy]
        simp only [IsFaithful, step, hrun]
        refine ⟨⟨d, h, hd, hh, rfl, fun env' henv => ⟨_, exec_new henv, hhash⟩⟩, ?_, ?_⟩
        · exact hlatest.trans hs.latest
        · exact hprevious.trans hs.previous

end Call

end

end Storage

open Storage

/-- A resource with a store. -/
def keeper : Coherence := { metadata := { ns := "default", name := "storage" } }

/-- A ConfigMap to be stored. -/
def keeperResources : Resources :=
  { items := [{
      kind := .configMap
      name := "config"
      spec := some ⟨{ ns := "default", name := "config" }, .configMap ∅⟩
      filed := by simp [Object.kind] }] }

/-- Its secret has no labels. -/
def unlabelledCluster : World :=
  { (default : World) with stores := Table.empty.put { metadata := { ns := "default", name := "storage" } } }

end CoherenceOperator
