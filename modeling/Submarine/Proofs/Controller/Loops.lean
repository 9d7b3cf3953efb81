import Submarine.Proofs.Watch.Tracking

namespace Submarine

open Cluster (Proper Gentle)

variable {k : Kind} {c c' : Cluster} {p : Place} {root : Root}

theorem Object.IsChildOf.ownerKey? {o : Object k} {roots : Cache .submarine}
    (h : o.IsChildOf root) (hroot : root.Named p) (hcached : roots.get? p.ns p.name = some root) :
    Router.ownerKey? roots o = some p.key := by
  have hcontrolled := h.controlled
  unfold Object.isControlledBy at hcontrolled
  cases hlink : o.controller? with
  | none =>
    rw [hlink] at hcontrolled
    contradiction
  | some link =>
    rw [hlink] at hcontrolled
    obtain ⟨⟨hkind, hname⟩, huid⟩ : (link.kind = Kind.submarine.name ∧
        some link.name = root.metadata.name) ∧ some link.uid = root.metadata.uid := by
      simpa [OwnerLink.pointsTo] using hcontrolled
    have hname : link.name = p.name := Option.some.inj (hname.trans hroot.name)
    have hns : o.metadata.ns.getD "" = p.ns := by rw [h.ns, hroot.ns, Option.getD_some]
    unfold Router.ownerKey?
    rw [hlink]
    simp [hkind, hname, hns, hcached, huid, Place.key]

namespace Cache

variable {cache : Cache k} {e : WatchEvent k} {o : Object k}

theorem subject?_putNotification
    (h : ∀ old, cache.objects.get? o.cacheKey = some old → Router.versionMoved old o) :
    Router.subject? (cache.putNotification o) = some o := by
  unfold putNotification
  cases hold : cache.objects.get? o.cacheKey with
  | none => rfl
  | some old => exact if_pos (h old hold)

theorem exists_subject (hmoves : cache.Moves [e]) (h : e.object? = some o) :
    ∃ n ∈ (cache.apply e).2, Router.subject? n = some o := by
  cases e with
  | applied | listed =>
    obtain rfl := Option.some.inj h
    exact ⟨_, List.mem_singleton_self _, subject?_putNotification (hmoves.1 _ rfl)⟩
  | deleted =>
    obtain rfl := Option.some.inj h
    exact ⟨_, List.mem_singleton_self _, rfl⟩
  | relistStarted | relistDone => contradiction

theorem keyOfRoot?_putNotification {cache : Cache .submarine}
    (h : ∀ old, cache.objects.get? root.cacheKey = some old → Router.versionMoved old root) :
    Router.keyOfRoot? (cache.putNotification root) = some (Router.rootKey root) := by
  unfold putNotification
  cases hold : cache.objects.get? root.cacheKey with
  | none => rfl
  | some old => exact if_pos (h old hold)

theorem exists_keyOfRoot {cache : Cache .submarine} {e : WatchEvent .submarine}
    (hmoves : cache.Moves [e]) (h : e.news? = some root) :
    ∃ n ∈ (cache.apply e).2, Router.keyOfRoot? n = some (Router.rootKey root) := by
  have hput := keyOfRoot?_putNotification (hmoves.1 root h)
  cases e with
  | applied | listed =>
    obtain rfl := Option.some.inj h
    exact ⟨_, List.mem_singleton_self _, hput⟩
  | deleted | relistStarted | relistDone => contradiction

end Cache

/-- What somebody is concerned with: events, and the notifications that they are turned into. What
is of concern stays so when it is changed. -/
structure Concern (k : Kind) where
  isRead : WatchEvent k → Prop
  isTold : Notification k → Prop
  told : ∀ {cache : Cache k} {e : WatchEvent k}, cache.Moves [e] → isRead e →
    ∃ n ∈ (cache.apply e).2, isTold n
  kept : ∀ {p : Place} {old new : Object k}, old.Named p → new.Named p →
    (k ∈ childKinds → old.KeepsController new) → isRead (.listed old) → isRead (.listed new)

namespace Concern

def ofRoot (p : Place) : Concern .submarine where
  isRead e := ∃ o, e.news? = some o ∧ Object.Named o p
  isTold n := Router.keyOfRoot? n = some p.key
  told hmoves := by
    rintro ⟨o, hnews, hnamed⟩
    exact hnamed.rootKey ▸ Cache.exists_keyOfRoot hmoves hnews
  kept hold hnew _ := by
    rintro ⟨o, hnews, hnamed⟩
    obtain rfl := Option.some.inj hnews
    obtain rfl := hold.unique hnamed
    exact ⟨_, rfl, hnew⟩

def ofChild (hk : k ∈ childKinds) (root : Root) : Concern k where
  isRead e := ∃ o, e.object? = some o ∧ o.IsChildOf root
  isTold n := ∃ o, Router.subject? n = some o ∧ o.IsChildOf root
  told hmoves := by
    rintro ⟨o, hobject, ho⟩
    obtain ⟨n, hn, hsubject⟩ := Cache.exists_subject hmoves hobject
    exact ⟨n, hn, o, hsubject, ho⟩
  kept hold hnew hkeeps := by
    rintro ⟨o, hobject, ho⟩
    obtain rfl := Option.some.inj hobject
    refine ⟨_, rfl, (hkeeps hk).isControlledBy ho.controlled, ?_⟩
    exact hnew.ns.trans (hold.ns.symm.trans ho.ns)

end Concern

namespace Cluster

def HasRemoved (c : Cluster) (k : Kind) : Prop := ∃ o : Object k, ⟨⟨k, o⟩, true⟩ ∈ c.log

/-- A listing of the kind will tell of something of concern, unless something was removed. -/
def Bears (c : Cluster) (concern : Concern k) : Prop :=
  c.HasRemoved k ∨ ∃ p o, c.find? k p = some o ∧ concern.isRead (.listed o)

theorem HasRemoved.of_log {later : List Change} (h : c.HasRemoved k)
    (hlog : c'.log = c.log ++ later) : c'.HasRemoved k := by
  obtain ⟨o, ho⟩ := h
  refine ⟨o, ?_⟩
  rw [hlog]
  exact List.mem_append_left _ ho

theorem Bears.gentle {concern : Concern k} (h : c.Bears concern) (hc : Proper c)
    (hg : Gentle c c') : c'.Bears concern := by
  cases hg with
  | unchanged same =>
    rcases h with hremoved | ⟨p, o, hfind, hread⟩
    · have hlog : c'.log = c.log ++ [] := by rw [same.log, List.append_nil]
      exact .inl (hremoved.of_log hlog)
    · exact .inr ⟨p, o, by rwa [same.find?], hread⟩
  | @stores j q new named keeps stores =>
    rcases h with hremoved | ⟨p, o, hfind, hread⟩
    · exact .inl (hremoved.of_log stores.log)
    · by_cases hself : k = j ∧ p = q
      · obtain ⟨rfl, rfl⟩ := hself
        refine .inr ⟨p, _, stores.find?_self, ?_⟩
        refine concern.kept (hc.named hfind) (named.congr rfl rfl named.uid) (fun hk ↦ ?_) hread
        exact keeps hk o hfind
      · exact .inr ⟨p, o, (stores.find?_of_ne _ _ hself).trans hfind, hread⟩
  | @removes j q old removes =>
    rcases h with hremoved | ⟨p, o, hfind, hread⟩
    · exact .inl (hremoved.of_log removes.log)
    · by_cases hself : k = j ∧ p = q
      · obtain ⟨rfl, rfl⟩ := hself
        refine .inl ⟨old, ?_⟩
        rw [removes.log]
        exact List.mem_append_right _ (List.mem_singleton_self _)
      · exact .inr ⟨p, o, (removes.find?_of_ne _ _ hself).trans hfind, hread⟩

end Cluster

namespace Loop

variable {l l' : Loop k} {cache : Cache k} {concern : Concern k}

def IsSilent (l : Loop k) : Prop := l.feed = ⟨[], .silent⟩

inductive Sound (l : Loop k) (cache : Cache k) (c : Cluster) : Prop where
  | silent (silent : l.IsSilent) (pending : l.pending = []) (ended : l.ended = none)
      (empty : ∀ key, cache.objects.get? key = none)
  | live (w : Watch k) (feed : l.feed = ⟨[], .live w⟩) (ended : l.ended = none)
      (tracks : w.Tracks cache c)

def ahead (l : Loop k) (c : Cluster) : List (WatchEvent k) :=
  match l.feed.rest with
  | .live w => w.ahead c
  | .silent | .ended => []

def KeepsUp (l : Loop k) (c : Cluster) : Prop :=
  match l.feed.rest with
  | .live w => w.KeepsUp c
  | .silent | .ended => True

def IsDry (l : Loop k) (c : Cluster) : Prop :=
  l.pending = [] ∧ ∃ w, l.feed.rest = .live w ∧ w.read? c = none

instance (l : Loop k) (c : Cluster) : Decidable (l.IsDry c) :=
  match hrest : l.feed.rest with
  | .live w => decidable_of_iff (l.pending = [] ∧ (w.read? c).isNone) <| by simp [IsDry, hrest]
  | .silent | .ended => .isFalse <| by simp [IsDry, hrest]

/-- Something of concern is still to be routed, or will be told to the loop when it opens. -/
def Owes (l : Loop k) (c : Cluster) (concern : Concern k) : Prop :=
  (l.IsSilent ∧ c.Bears concern) ∨ (∃ n ∈ l.pending, concern.isTold n) ∨
    ∃ e ∈ l.ahead c, concern.isRead e

def open? (l : Loop k) (c : Cluster) : Option (Loop k) :=
  match l.feed with
  | ⟨[], .silent⟩ => some { l with feed := .live k c }
  | _ => none

def receive (l : Loop k) (cache : Cache k) : Option (WatchEvent k) → Loop k × Cache k
  | none => (l, cache)
  | some e => ({ l with pending := (cache.apply e).2 }, (cache.apply e).1)

theorem ahead_of_silent (h : l.IsSilent) (c : Cluster) : l.ahead c = [] := by
  rw [ahead, h]

theorem ahead_of_feed {w : Watch k} (h : l.feed = ⟨[], .live w⟩) (c : Cluster) :
    l.ahead c = w.ahead c := by
  rw [ahead, h]

theorem ahead_receive (l : Loop k) (cache : Cache k) (event? : Option (WatchEvent k))
    (c : Cluster) : (l.receive cache event?).1.ahead c = l.ahead c := by
  cases event? <;> rfl

theorem read?_of_feed {w : Watch k} (hfeed : l.feed = ⟨[], .live w⟩) (hended : l.ended = none)
    (c : Cluster) :
    l.read? c = (w.read? c).map fun r ↦ (r.1, { l with feed := ⟨[], .live r.2⟩ }) := by
  unfold read? Feed.next?
  rw [hended, hfeed]
  dsimp only
  rw [Option.map_map]
  refine congrArg (Option.map · (w.read? c)) (funext fun r ↦ ?_)
  rcases r with ⟨_ | e, w'⟩ <;> rfl

theorem open?_eq_some (h : l.open? c = some l') :
    l.IsSilent ∧ l' = { l with feed := .live k c } := by
  unfold open? at h
  split at h
  · next hfeed => exact ⟨hfeed, (Option.some.inj h).symm⟩
  · contradiction

namespace Sound

theorem gentle (hc : Proper c) (h : l.Sound cache c) (hg : Gentle c c') : l.Sound cache c' := by
  cases h with
  | silent silent pending ended empty => exact .silent silent pending ended empty
  | live w feed ended tracks => exact .live w feed ended (tracks.gentle hc hg)

theorem route (h : l.Sound cache c) {n : Notification k} {rest : List (Notification k)}
    (hpending : l.pending = n :: rest) : { l with pending := rest }.Sound cache c := by
  cases h with
  | silent silent pending =>
    rw [pending] at hpending
    contradiction
  | live w feed ended tracks => exact .live w feed ended tracks

theorem read {event? : Option (WatchEvent k)} (h : l.Sound cache c) (hup : l.KeepsUp c)
    (hread : l.read? c = some (event?, l')) :
    l.ahead c = event?.toList ++ l'.ahead c ∧ cache.Moves event?.toList ∧ ¬ l.IsSilent ∧
      (l'.receive cache event?).1.Sound (l'.receive cache event?).2 c := by
  cases h with
  | silent silent pending ended empty =>
    have hnothing : l.feed.next? c = none := by rw [silent, Feed.next?]
    rw [read?, ended] at hread
    simp [hnothing] at hread
  | live w feed ended tracks =>
    have hkeeps : w.KeepsUp c := by rwa [KeepsUp, feed] at hup
    rw [read?_of_feed feed ended] at hread
    obtain ⟨⟨e, w'⟩, hw, he⟩ := Option.map_eq_some_iff.1 hread
    obtain ⟨rfl, rfl⟩ := Prod.mk.inj he
    obtain ⟨hahead, -⟩ := Watch.read?_spec hkeeps hw
    have hmoves := tracks.moves
    rw [hahead, Cache.moves_append] at hmoves
    have htracks := tracks.read hkeeps hw
    refine ⟨?_, hmoves.1, ?_, ?_⟩
    · rw [ahead_of_feed feed, hahead]
      rfl
    · rw [IsSilent, feed]
      simp
    · cases e with
      | none => exact .live w' rfl ended htracks
      | some e => exact .live w' rfl ended htracks

theorem opened (hc : Proper c) (h : l.Sound cache c) (hopen : l.open? c = some l') :
    l'.Sound cache c ∧ ∀ p o, c.find? k p = some o → .listed o ∈ l'.ahead c := by
  obtain ⟨hsilent, rfl⟩ := open?_eq_some hopen
  cases h with
  | silent _ _ ended empty =>
    refine ⟨.live _ rfl ended (Watch.Tracks.start hc empty), fun p o hfind ↦ ?_⟩
    rw [ahead_of_feed rfl, Watch.ahead_start, Watch.start]
    have hstored : o ∈ (c.objects k).values := Cluster.mem_values_iff.2 ⟨p, hfind⟩
    simp [hstored]
  | live w feed =>
    rw [IsSilent, feed] at hsilent
    simp at hsilent

theorem ahead_subset (h : l.Sound cache c) (hg : Gentle c c') : l.ahead c ⊆ l.ahead c' := by
  cases h with
  | silent silent =>
    rw [ahead_of_silent silent]
    exact List.nil_subset _
  | live w feed ended tracks =>
    rw [ahead_of_feed feed, ahead_of_feed feed]
    cases hg with
    | unchanged same => rw [Watch.ahead, Watch.ahead, same.log]; exact List.Subset.refl _
    | stores p o _ _ stores =>
      rw [Watch.ahead_append tracks.position_le stores.log]
      exact List.subset_append_left _ _
    | removes p o removes =>
      rw [Watch.ahead_append tracks.position_le removes.log]
      exact List.subset_append_left _ _

theorem owes_of_stored {o : Object k} (h : l.Sound cache c) (hfind : c'.find? k p = some o)
    (hlog : c'.log = c.log ++ [⟨⟨k, o⟩, false⟩]) (hlisted : concern.isRead (.listed o))
    (happlied : concern.isRead (.applied o)) : l.Owes c' concern := by
  cases h with
  | silent silent => exact .inl ⟨silent, .inr ⟨p, o, hfind, hlisted⟩⟩
  | live w feed ended tracks =>
    refine .inr (.inr ⟨_, ?_, happlied⟩)
    rw [ahead_of_feed feed, Watch.ahead_append tracks.position_le hlog, Watch.eventOf?_self]
    simp

theorem owes_of_removed {o : Object k} (h : l.Sound cache c)
    (hlog : c'.log = c.log ++ [⟨⟨k, o⟩, true⟩]) (hdeleted : concern.isRead (.deleted o)) :
    l.Owes c' concern := by
  cases h with
  | silent silent =>
    refine .inl ⟨silent, .inl ⟨o, ?_⟩⟩
    rw [hlog]
    exact List.mem_append_right _ (List.mem_singleton_self _)
  | live w feed ended tracks =>
    refine .inr (.inr ⟨_, ?_, hdeleted⟩)
    rw [ahead_of_feed feed, Watch.ahead_append tracks.position_le hlog, Watch.eventOf?_self]
    simp

/-- The cache holds what is stored, or will hear of it. -/
theorem cached_or_owes {l : Loop .submarine} {roots : Cache .submarine} (hc : Proper c)
    (h : l.Sound roots c) (hfind : c.find? .submarine p = some root) :
    roots.get? p.ns p.name = some root ∨ l.Owes c (.ofRoot p) := by
  cases h with
  | silent silent => exact .inr (.inl ⟨silent, .inr ⟨p, root, hfind, root, rfl, hc.named hfind⟩⟩)
  | live w feed ended tracks =>
    have harrives := (tracks.arrives (hc.named hfind).isKeyed).trans hfind
    rcases Cache.applyAll_source harrives with hcached | ⟨e, he, hnews, -⟩
    · exact .inl hcached
    · refine .inr (.inr (.inr ⟨e, ?_, root, hnews, hc.named hfind⟩))
      rwa [ahead_of_feed feed]

end Sound

namespace Owes

theorem gentle (h : l.Owes c concern) (hs : l.Sound cache c) (hc : Proper c)
    (hg : Gentle c c') : l.Owes c' concern := by
  rcases h with ⟨hsilent, hbears⟩ | hpending | ⟨e, he, hread⟩
  · exact .inl ⟨hsilent, hbears.gentle hc hg⟩
  · exact .inr (.inl hpending)
  · exact .inr (.inr ⟨e, hs.ahead_subset hg he, hread⟩)

theorem route (h : l.Owes c concern) {n : Notification k} {rest : List (Notification k)}
    (hpending : l.pending = n :: rest) :
    { l with pending := rest }.Owes c concern ∨ concern.isTold n := by
  rcases h with hsilent | ⟨m, hm, htold⟩ | hahead
  · exact .inl (.inl hsilent)
  · rw [hpending] at hm
    rcases List.mem_cons.1 hm with rfl | hm
    · exact .inr htold
    · exact .inl (.inr (.inl ⟨m, hm, htold⟩))
  · exact .inl (.inr (.inr hahead))

/-- An event that is read is owed as one of the notifications that it is turned into. -/
theorem read {event? : Option (WatchEvent k)} (h : l.Owes c concern) (hs : l.Sound cache c)
    (hup : l.KeepsUp c) (hpending : l.pending = []) (hread : l.read? c = some (event?, l')) :
    (l'.receive cache event?).1.Owes c concern := by
  obtain ⟨hahead, hmoves, hopen, -⟩ := hs.read hup hread
  rcases h with ⟨hsilent, -⟩ | ⟨n, hn, -⟩ | ⟨e, he, hconcern⟩
  · exact absurd hsilent hopen
  · rw [hpending] at hn
    contradiction
  · rw [hahead] at he
    rcases List.mem_append.1 he with hfirst | hlater
    · obtain rfl : event? = some e := by simpa using hfirst
      obtain ⟨n, hn, htold⟩ := concern.told hmoves hconcern
      exact .inr (.inl ⟨n, hn, htold⟩)
    · refine .inr (.inr ⟨e, ?_, hconcern⟩)
      rwa [ahead_receive]

theorem opened (h : l.Owes c concern) (hs : l.Sound cache c) (hc : Proper c)
    (hkept : ¬ c.HasRemoved k) (hopen : l.open? c = some l') : l'.Owes c concern := by
  obtain ⟨hsilent, rfl⟩ := open?_eq_some hopen
  rcases h with ⟨-, hremoved | ⟨p, o, hfind, hread⟩⟩ | hpending | ⟨e, he, -⟩
  · exact absurd hremoved hkept
  · exact .inr (.inr ⟨_, (hs.opened hc hopen).2 p o hfind, hread⟩)
  · exact .inr (.inl hpending)
  · rw [ahead_of_silent hsilent] at he
    contradiction

end Owes

end Loop

end Submarine
