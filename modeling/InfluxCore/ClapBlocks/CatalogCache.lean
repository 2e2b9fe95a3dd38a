import Mathlib.Data.List.Basic

/-! # `CatalogConfig::peers`: the two other nodes of the catalog cache

The catalog cache runs on three nodes, each given the list of all of them. `peers` drops every
peer whose URL has the node's own host name as its host, and requires exactly two to remain
(`collect_tuple`), in the order given. `url::Url` and `url::Host` are external: a URL is its
serialization and its host (`Url::host`), which a URL without an authority lacks.

`peers_eq_ok_iff` is what `peers` returns: the two configured peers that are not on this host,
in order, where a peer without a host, or a node without a host name, keeps the peer.
`peers_of_shared_list` is what that means for a cluster whose nodes are all given one list of
their URLs, hosts distinct: every node finds its two peers exactly when there are three nodes,
and they are the other two.
-/

namespace InfluxCore.ClapBlocks

/-- `url::Host<String>`. -/
inductive Host
  | domain (name : String)
  | ipv4 (address : UInt32)
  | ipv6 (address : Nat)
  deriving DecidableEq, Repr

/-- `url::Url`: its serialization, and its host. -/
structure Url where
  serialization : String
  host : Option Host
  deriving DecidableEq, Repr

/-- `Error`, the variant `peers` returns. -/
inductive Error
  | invalidPeers
  deriving DecidableEq, Repr

/-- The fields of `CatalogConfig` that `peers` reads. -/
structure CatalogConfig where
  hostname : Option Host
  peers : List Url
  deriving DecidableEq, Repr

/-- The closure of the `filter` in `peers`. -/
def keepsPeer (hostname : Option Host) (peer : Url) : Bool :=
  match peer.host, hostname with
  | some host, some hostname => host != hostname
  | _, _ => true

/-- `CatalogConfig::peers`. -/
def peers (config : CatalogConfig) : Except Error (Url × Url) :=
  match config.peers.filter (keepsPeer config.hostname) with
  | [peer1, peer2] => .ok (peer1, peer2)
  | _ => .error .invalidPeers

theorem keepsPeer_iff (hostname : Option Host) (peer : Url) :
    keepsPeer hostname peer = true ↔ peer.host = none ∨ hostname = none ∨ peer.host ≠ hostname := by
  rcases peer with ⟨serialization, _ | host⟩ <;> rcases hostname with _ | hostname <;>
    simp [keepsPeer]

/-- `peers` returns the two configured peers whose host is not the node's own, in the order
given: a peer without a host, or a node without a host name, keeps the peer. Any other number of
them is `InvalidPeers`. -/
theorem peers_eq_ok_iff (config : CatalogConfig) (first second : Url) :
    peers config = .ok (first, second) ↔
      config.peers.filter (fun peer => peer.host = none ∨ config.hostname = none ∨
        peer.host ≠ config.hostname) = [first, second] := by
  have kept : config.peers.filter (keepsPeer config.hostname) =
      config.peers.filter (fun peer => peer.host = none ∨ config.hostname = none ∨
        peer.host ≠ config.hostname) :=
    List.filter_congr fun peer _ =>
      Bool.eq_iff_iff.mpr ((keepsPeer_iff _ _).trans decide_eq_true_iff.symm)
  unfold peers
  rw [← kept]
  split
  · next found =>
    rw [found]
    simp only [Except.ok.injEq, Prod.mk.injEq, List.cons.injEq, and_true]
  · next others => exact iff_of_false (fun equal => nomatch equal) (others _ _)

/-- The three-node configuration of the source's test, seen from `peer3`. -/
example : peers ⟨some (.domain "peer3"), [⟨"http://peer1:8080/", some (.domain "peer1")⟩,
    ⟨"http://peer2:9090/", some (.domain "peer2")⟩, ⟨"http://peer3:9091/", some (.domain "peer3")⟩]⟩ =
      .ok (⟨"http://peer1:8080/", some (.domain "peer1")⟩, ⟨"http://peer2:9090/", some (.domain "peer2")⟩) :=
  rfl

theorem peers_eq_error_iff (config : CatalogConfig) :
    peers config = .error .invalidPeers ↔ (config.peers.filter (keepsPeer config.hostname)).length ≠ 2 := by
  unfold peers
  split
  · next found => simp [found]
  · next others =>
    refine iff_of_true rfl fun two => ?_
    obtain ⟨first, second, found⟩ := List.length_eq_two.mp two
    exact others _ _ found

/-! ## A cluster whose nodes share one list -/

/-- A node given the list of every node, hosts all distinct and present, drops its own URL and
keeps every other. -/
theorem filter_keepsPeer_get {urls : List Url} (distinct : (urls.map Url.host).Nodup)
    (present : ∀ url ∈ urls, url.host ≠ none) (node : Fin urls.length) :
    urls.filter (keepsPeer (urls.get node).host) = urls.eraseIdx node := by
  induction urls with
  | nil => exact node.elim0
  | cons url urls inductionHypothesis =>
    rw [List.map_cons, List.nodup_cons] at distinct
    have others : ∀ other ∈ urls, keepsPeer url.host other = true := fun other member =>
      (keepsPeer_iff _ _).mpr (.inr (.inr fun same => distinct.1 (same ▸ List.mem_map_of_mem _ member)))
    obtain ⟨index, bound⟩ := node
    cases index with
    | zero =>
      have own : keepsPeer url.host url = false := by
        obtain ⟨host, found⟩ := Option.ne_none_iff_exists'.mp (present url (List.mem_cons_self _ _))
        simp [keepsPeer, found]
      rw [List.filter_cons_of_neg (by simpa using own)]
      exact List.filter_eq_self.mpr others
    | succ index =>
      have kept : keepsPeer (urls.get ⟨index, Nat.lt_of_succ_lt_succ bound⟩).host url = true :=
        (keepsPeer_iff _ _).mpr (.inr (.inr fun same =>
          distinct.1 (same ▸ List.mem_map_of_mem _ (List.get_mem _ _ _))))
      rw [List.filter_cons_of_pos (by simpa using kept)]
      exact congrArg _ (inductionHypothesis distinct.2 (fun other member =>
        present other (List.mem_cons_of_mem _ member)) ⟨index, Nat.lt_of_succ_lt_succ bound⟩)

/-- A cluster whose nodes are all given the same list of every node's URL, hosts all distinct and
present: `peers` succeeds on a node exactly when there are three nodes, and it then returns the
two others, in the order of the list. -/
theorem peers_of_shared_list {urls : List Url} (distinct : (urls.map Url.host).Nodup)
    (present : ∀ url ∈ urls, url.host ≠ none) (node : Fin urls.length) (first second : Url) :
    peers ⟨(urls.get node).host, urls⟩ = .ok (first, second) ↔
      urls.length = 3 ∧ urls.eraseIdx node = [first, second] := by
  have shortened := List.length_eraseIdx_of_lt node.isLt
  unfold peers
  dsimp only
  rw [filter_keepsPeer_get distinct present node]
  split
  · next peer1 peer2 found =>
    rw [found] at shortened ⊢
    simp only [Except.ok.injEq, Prod.mk.injEq, List.cons.injEq, and_true, List.length_cons,
      List.length_nil] at shortened ⊢
    exact ⟨fun equal => ⟨by omega, equal⟩, And.right⟩
  · next others => exact iff_of_false (fun equal => nomatch equal) fun ⟨_, found⟩ => others _ _ found

theorem peers_of_shared_list_of_three_nodes :
    ([⟨"http://peer1:8080/", some (.domain "peer1")⟩, ⟨"http://peer2:9090/", some (.domain "peer2")⟩,
        ⟨"http://peer3:9091/", some (.domain "peer3")⟩].map Url.host).Nodup ∧
      (∀ url ∈ ([⟨"http://peer1:8080/", some (.domain "peer1")⟩,
        ⟨"http://peer2:9090/", some (.domain "peer2")⟩,
        ⟨"http://peer3:9091/", some (.domain "peer3")⟩] : List Url), url.host ≠ none) ∧
      peers ⟨some (.domain "peer2"), [⟨"http://peer1:8080/", some (.domain "peer1")⟩,
        ⟨"http://peer2:9090/", some (.domain "peer2")⟩,
        ⟨"http://peer3:9091/", some (.domain "peer3")⟩]⟩ =
        .ok (⟨"http://peer1:8080/", some (.domain "peer1")⟩,
          ⟨"http://peer3:9091/", some (.domain "peer3")⟩) :=
  have distinct : ([⟨"http://peer1:8080/", some (.domain "peer1")⟩,
      ⟨"http://peer2:9090/", some (.domain "peer2")⟩,
      ⟨"http://peer3:9091/", some (.domain "peer3")⟩].map Url.host).Nodup := by decide
  have present : ∀ url ∈ ([⟨"http://peer1:8080/", some (.domain "peer1")⟩,
      ⟨"http://peer2:9090/", some (.domain "peer2")⟩,
      ⟨"http://peer3:9091/", some (.domain "peer3")⟩] : List Url), url.host ≠ none := by decide
  ⟨distinct, present, (peers_of_shared_list distinct present ⟨1, by decide⟩ _ _).mpr ⟨rfl, rfl⟩⟩

end InfluxCore.ClapBlocks
