import Elchi.OrderEpochs
import Elchi.PostWorlds
namespace Elchi.Logistics
open RowLock Orders Programs

-- What an order has to do with posts: whether it is there, the post it names, and its price.
structure Link where
  id : Nat
  alive : Bool
  postId : Option Nat
  price : Int
def linkOf (entry : Nat × Order) : Link := ⟨entry.1,World.live entry.1 entry.2,entry.2.postId,entry.2.totalPrice⟩
def World.links (w : World) : List Link := w.orders.map linkOf
def Link.names (ids : List Nat) (link : Link) : Bool := link.alive && link.postId.any ids.contains
def Link.redirect (f : Nat → Nat) (link : Link) : Link := {link with postId:=if link.alive then link.postId.map f else link.postId}
def Link.retarget (ids : List Nat) (id : Nat) (link : Link) : Link := if link.id ∈ ids then {link with postId:=some id} else link
def World.inPosts (w : World) (ids : List Nat) : Table Order :=
  w.orders.select fun id order => World.live id order && order.postId.any ids.contains

-- The posts of a region become one.
def into (id : Nat) (duplicates : List Nat) (p : Nat) : Nat := if p ∈ duplicates then id else p
def merged (w : World) (id : Nat) (post : Post) (duplicates : List Nat) : Post :=
  if duplicates = [] then {post with branchId:=none}
  else {post with branchId:=none,orderQuantity:=(w.inPosts (id :: duplicates)).length,postTotalPrice:=rowsTotal (w.inPosts (id :: duplicates))}

-- No order names a post that was there at the start and is gone.
def Anchored (start w : World) : Prop := ∀ link ∈ w.links,link.alive = true → ∀ p,link.postId = some p →
  start.posts.row p ≠ none → w.posts.row p ≠ none
-- A call that is not carried out, or whose answer is lost.
def Broken (allowed : Fate → Prop) : Prop := ∃ fate,allowed fate ∧ ∀ pick,fate ≠ .goes pick
theorem undisturbed_whole : ¬Broken undisturbed := fun ⟨_,⟨pick,same⟩,lost⟩ => lost pick same

section Rules
variable {allowed : Fate → Prop} {α β : Type} {always : World → Prop} {Q : Except RpcError β → World → Prop} {w : World}

-- A call that answers as it is carried out fails only when it is disturbed.
theorem ends_carried {action : Action} {f : Reply action → Operation β} {after : World} {a : Reply action}
    (carried : ∀ pick,w.carry pick action = (after,.ok a)) (now : always w) (later : always after)
    (each : World.ends allowed (f a) always Q after) (stop : Broken allowed → ∀ e s,Q (.error e) s) :
    World.ends allowed ((call action).bind f) always Q w := by
  intro fate fine
  cases fate with
  | goes pick =>
    have answered : w.answer (.goes pick) action = (after,.ok a) := carried pick
    rw [answered]
    exact ⟨later,each⟩
  | lost pick =>
    have answered : w.answer (.lost pick) action = (after,.error unavailable) := by rw [World.answer,carried pick]
    rw [answered]
    exact ⟨later,stop ⟨_,fine,fun _ => (nomatch ·)⟩ _ _⟩
  | fails => exact ⟨now,stop ⟨_,fine,fun _ => (nomatch ·)⟩ _ _⟩
theorem ends_carriedLast {action : Action} {Q : Except RpcError (Reply action) → World → Prop} {after : World} {a : Reply action}
    (carried : ∀ pick,w.carry pick action = (after,.ok a)) (now : always w) (later : always after) (done : Q (.ok a) after)
    (stop : Broken allowed → ∀ e s,Q (.error e) s) : World.ends allowed (call action) always Q w := by
  have whole := ends_carried (f:=fun a => .done (.ok a)) carried now later done stop
  rwa [bind_done] at whole

end Rules

section Links
variable {w : World} {ids : List Nat}

theorem found_row {V : Type} {table : Table V} {key : Nat} {value : V} (stored : table.row key = some value) :
    table.find? (fun entry => entry.1 == key) = some (key,value) := by
  obtain ⟨entry,found,rfl⟩ := Option.map_eq_some_iff.mp stored
  have same : entry.1 = key := by simpa using List.find?_some found
  rw [found,←same]
theorem order_link {id : Nat} {order : Order} (stored : w.order id = some order) :
    linkOf (id,order) ∈ w.links ∧ World.live id order = true := by
  obtain ⟨row,alive⟩ := order_parts.mp stored
  exact ⟨List.mem_map_of_mem (List.mem_of_find?_eq_some (found_row row)),alive⟩
theorem link_order (keyed : w.orders.Keyed) {link : Link} (member : link ∈ w.links) (alive : link.alive = true) :
    ∃ order,w.order link.id = some order ∧ linkOf (link.id,order) = link := by
  obtain ⟨⟨id,order⟩,inside,rfl⟩ := List.mem_map.mp member
  exact ⟨order,order_parts.mpr ⟨(row_exact keyed).mp inside,alive⟩,rfl⟩
theorem link_unique (keyed : w.orders.Keyed) {left right : Link} (first : left ∈ w.links) (second : right ∈ w.links)
    (same : left.id = right.id) : left = right := by
  have distinct : (w.links.map (·.id)).Nodup := by
    rw [World.links,List.map_map]
    exact keyed
  exact List.inj_on_of_nodup_map distinct first second same
theorem inPosts_links (w : World) (ids : List Nat) : (w.inPosts ids).map linkOf = w.links.filter (Link.names ids) := by
  rw [World.links,List.filter_map]
  rfl
theorem inPosts_length (w : World) (ids : List Nat) : (w.inPosts ids).length = (w.links.filter (Link.names ids)).length := by
  rw [←inPosts_links,List.length_map]
theorem inPosts_total (w : World) (ids : List Nat) :
    rowsTotal (w.inPosts ids) = ((w.links.filter (Link.names ids)).map (·.price)).sum := by
  rw [←inPosts_links,rowsTotal,totalPrice,List.map_map,List.map_map]
  rfl

-- The rows of a list that is not cut off.
theorem list_whole (few : (w.inPosts ids).length ≤ maxFetchAll) :
    w.list (fun _ order => order.postId.any ids.contains) = (w.inPosts ids).reverse := by
  rw [World.list,List.take_of_length_le]
  · rfl
  · rw [List.length_reverse]
    exact few
theorem list_length (few : (w.inPosts ids).length ≤ maxFetchAll) :
    (w.list fun _ order => order.postId.any ids.contains).length = (w.inPosts ids).length := by
  rw [list_whole few,List.length_reverse]
theorem list_total (few : (w.inPosts ids).length ≤ maxFetchAll) :
    rowsTotal (w.list fun _ order => order.postId.any ids.contains) = rowsTotal (w.inPosts ids) := by
  rw [list_whole few,rowsTotal,totalPrice,List.map_reverse,List.map_reverse,List.sum_reverse]
  rfl
theorem mem_inPosts (keyed : w.orders.Keyed) {entry : Nat × Order} : entry ∈ w.inPosts ids ↔
    w.order entry.1 = some entry.2 ∧ (linkOf entry).names ids = true := by
  rw [World.inPosts,Table.select,List.mem_filter,order_parts,←row_exact keyed]
  change entry ∈ w.orders ∧ (linkOf entry).names ids = true ↔ _
  constructor
  · rintro ⟨inside,named⟩
    exact ⟨⟨inside,(Bool.and_eq_true_iff.mp named).1⟩,named⟩
  · rintro ⟨⟨inside,-⟩,named⟩
    exact ⟨inside,named⟩

-- One order goes to another post.
theorem put_mapped {V W : Type} {table : Table V} {key : Nat} {old value : V} (keyed : table.Keyed) (stored : table.row key = some old)
    (f : Nat × V → W) : (table.put key value).map f = table.map fun entry => if entry.1 = key then f (key,value) else f entry := by
  induction table with
  | nil => cases stored
  | cons entry rest ih =>
    obtain ⟨absent,tail⟩ := List.nodup_cons.mp keyed
    by_cases same : entry.1 = key
    · have apart : ∀ other ∈ rest,other.1 ≠ key := fun other member named =>
        absent (List.mem_map.mpr ⟨other,member,named.trans same.symm⟩)
      rw [Table.put,if_pos same,List.map_cons,List.map_cons,if_pos same]
      exact congrArg _ (List.map_congr_left fun other member => (if_neg (apart other member)).symm)
    · rw [row_cons,if_neg same] at stored
      rw [Table.put,if_neg same,List.map_cons,List.map_cons,if_neg same,ih tail stored]
theorem update_links {id : Nat} (postId : Nat) (keyed : w.orders.Keyed) {order : Order} (stored : w.order id = some order) :
    ∃ after,w.updateOrder id {postId:=some (some postId)} none = (after,.ok ()) ∧ after.orders.Keyed ∧ after.posts = w.posts ∧
      after.links = w.links.map (Link.retarget [id] postId) := by
  have valid : isValidStatusTransition order.status (({postId:=some (some postId)} : UpdateDto).status.getD order.status) = true := by
    simp [isValidStatusTransition]
  obtain ⟨row,alive⟩ := order_parts.mp stored
  refine ⟨_,update_done none stored valid,put_keyed keyed _ _,rfl,?_⟩
  rw [World.links,put_mapped keyed row,World.links,List.map_map]
  refine List.map_congr_left fun entry member => ?_
  by_cases same : entry.1 = id
  · -- the order itself, of which nothing else changes that posts look at
    obtain rfl : entry.2 = order := by
      have here := (row_exact keyed).mp (same ▸ member : (id,entry.2) ∈ w.orders)
      rw [row] at here
      exact (Option.some.inj here).symm
    simp [same,Link.retarget,linkOf]
  · simp [same,Link.retarget,linkOf]

theorem retarget_into {id : Nat} (keyed : w.orders.Keyed) (few : (w.inPosts ids).length ≤ maxFetchAll) :
    w.links.map (Link.retarget ((w.list fun _ order => order.postId.any ids.contains).map (·.1)) id) =
      w.links.map (Link.redirect (into id ids)) := by
  refine List.map_congr_left fun link member => ?_
  have listed : link.id ∈ (w.list fun _ order => order.postId.any ids.contains).map (·.1) ↔ link.names ids = true := by
    rw [list_whole few,List.map_reverse,List.mem_reverse]
    constructor
    · intro inside
      obtain ⟨entry,chosen,same⟩ := List.mem_map.mp inside
      obtain ⟨stored,named⟩ := (mem_inPosts keyed).mp chosen
      have own : linkOf entry = link := link_unique keyed (order_link stored).1 member same
      rw [←own]
      exact named
    · intro named
      obtain ⟨order,stored,same⟩ := link_order keyed member (Bool.and_eq_true_iff.mp named).1
      exact List.mem_map.mpr ⟨(link.id,order),(mem_inPosts keyed).mpr ⟨stored,by rw [same]; exact named⟩,rfl⟩
  unfold Link.retarget Link.redirect
  split
  · rename_i inside
    obtain ⟨alive,names⟩ := Bool.and_eq_true_iff.mp (listed.mp inside)
    obtain ⟨p,named,chosen⟩ := (Option.any_eq_true _ _).mp names
    have within : p ∈ ids := List.contains_iff_mem.mp chosen
    simp [alive,named,into,within]
  · rename_i outside
    obtain ⟨key,alive,postId,price⟩ := link
    cases alive with
    | false => rfl
    | true =>
      cases postId with
      | none => rfl
      | some p =>
        have without : p ∉ ids := by
          intro within
          refine outside (listed.mpr ?_)
          simpa [Link.names] using within
        simp [into,without]
theorem redirect_still {f : Nat → Nat} (still : ∀ p,f p = p) : Link.redirect f = fun link => link := by
  funext link
  obtain ⟨key,alive,postId,price⟩ := link
  cases postId with
  | none => simp [Link.redirect]
  | some p => simp [Link.redirect,still p]
theorem redirect_twice (f g : Nat → Nat) (link : Link) : (link.redirect f).redirect g = link.redirect (g ∘ f) := by
  obtain ⟨key,alive,postId,price⟩ := link
  cases alive with
  | false => rfl
  | true => simp [Link.redirect]
-- What the posts of a group count does not depend on where in the group an order is.
theorem names_redirect {f : Nat → Nat} (closed : ∀ p,f p ∈ ids ↔ p ∈ ids) (link : Link) : (link.redirect f).names ids = link.names ids := by
  obtain ⟨key,alive,postId,price⟩ := link
  cases alive with
  | false => rfl
  | true =>
    cases postId with
    | none => rfl
    | some p =>
      rw [Bool.eq_iff_iff]
      simpa [Link.redirect,Link.names] using closed p
theorem inPosts_redirect {after : World} {f : Nat → Nat} (links : after.links = w.links.map (Link.redirect f))
    (closed : ∀ p,f p ∈ ids ↔ p ∈ ids) :
    (after.inPosts ids).length = (w.inPosts ids).length ∧ rowsTotal (after.inPosts ids) = rowsTotal (w.inPosts ids) := by
  have same : Link.names ids ∘ Link.redirect f = Link.names ids := funext fun link => names_redirect closed link
  rw [inPosts_length,inPosts_length,inPosts_total,inPosts_total,links,List.filter_map,same,List.length_map,List.map_map]
  exact ⟨rfl,rfl⟩
theorem inPosts_fewer {others : List Nat} (inside : ∀ id ∈ ids,id ∈ others) : (w.inPosts ids).length ≤ (w.inPosts others).length := by
  rw [inPosts_length,inPosts_length]
  refine (List.monotone_filter_right _ fun link named => ?_).length_le
  obtain ⟨alive,names⟩ := Bool.and_eq_true_iff.mp named
  obtain ⟨p,there,chosen⟩ := (Option.any_eq_true _ _).mp names
  rw [Link.names,alive,there,Option.any_some,List.contains_iff_mem.mpr (inside p (List.contains_iff_mem.mp chosen))]
  rfl
theorem anchored_put {start after : World} {id : Nat} {post : Post} (anchored : Anchored start w) (orders : after.orders = w.orders)
    (posts : after.posts = w.posts.put id post) : Anchored start after := by
  intro link member alive p named kept
  rw [World.links,orders] at member
  rw [posts,row_put]
  split
  · exact Option.some_ne_none _
  · exact anchored link member alive p named kept
theorem retarget_nil (id : Nat) : Link.retarget [] id = fun link => link := by
  funext link
  simp [Link.retarget]
theorem retarget_next (front : List Nat) (key id : Nat) (link : Link) :
    (link.retarget front id).retarget [key] id = link.retarget (front ++ [key]) id := by
  by_cases first : link.id ∈ front
  · simp [Link.retarget,first]
  · simp [Link.retarget,first]
theorem anchored_retarget {start after : World} {id : Nat} (anchored : Anchored start w) (posts : after.posts = w.posts)
    (links : after.links = w.links.map (Link.retarget ids id)) (there : w.posts.row id ≠ none) : Anchored start after := by
  intro link member alive p named kept
  rw [links] at member
  obtain ⟨before,inside,rfl⟩ := List.mem_map.mp member
  rw [posts]
  unfold Link.retarget at named alive
  split at named
  · cases named
    exact there
  · rename_i apart
    rw [if_neg apart] at alive
    exact anchored before inside alive p named kept
end Links

section Region
variable {allowed : Fate → Prop} {β : Type} {Q : Except RpcError β → World → Prop} {start w : World}

-- The listed orders go to one post, one after another.
theorem ends_relink {f : Unit → Operation β} {rows : Table Order} {id : Nat} (keyed : w.orders.Keyed) (anchored : Anchored start w)
    (there : w.posts.row id ≠ none) (read : ∀ entry ∈ rows,w.order entry.1 = some entry.2)
    (each : ∀ after : World,after.orders.Keyed → after.posts = w.posts → after.links = w.links.map (Link.retarget (rows.map (·.1)) id) →
      Anchored start after → World.ends allowed (f ()) (Anchored start) Q after)
    (stop : Broken allowed → ∀ e s,Q (.error e) s) :
    World.ends allowed ((forEach (fun entry => updateOrder entry.1 {postId:=some (some id)} none) rows).bind f) (Anchored start) Q w := by
  refine ends_forEach_bind (fun rest now => ∃ front,front ++ rest = rows ∧ now.orders.Keyed ∧ now.posts = w.posts ∧
    now.links = w.links.map (Link.retarget (front.map (·.1)) id) ∧ Anchored start now) ?_ ?_ ?_
  · rintro entry rest now ⟨front,whole,keyedNow,posts,links,held⟩
    have listed : entry ∈ rows := whole ▸ List.mem_append_right front List.mem_cons_self
    obtain ⟨link,alive⟩ := order_link (read entry listed)
    have moved : (linkOf entry).retarget (front.map (·.1)) id ∈ now.links := links ▸ List.mem_map_of_mem link
    have same : ((linkOf entry).retarget (front.map (·.1)) id).id = entry.1 := by
      unfold Link.retarget
      split
      · rfl
      · rfl
    have lives : ((linkOf entry).retarget (front.map (·.1)) id).alive = true := by
      unfold Link.retarget
      split
      · exact alive
      · exact alive
    obtain ⟨order,stored,-⟩ := link_order keyedNow moved lives
    rw [same] at stored
    obtain ⟨after,done,keyedLater,postsLater,linksLater⟩ := update_links id keyedNow stored
    have later : Anchored start after := anchored_retarget held postsLater linksLater (posts ▸ there)
    refine ends_carriedLast (fun _ => done) held later ?_ stop
    refine ⟨front ++ [entry],by simpa using whole,keyedLater,postsLater.trans posts,?_,later⟩
    rw [linksLater,links,List.map_map,List.map_append]
    exact List.map_congr_left fun link _ => retarget_next _ _ _ _
  · refine ⟨[],rfl,keyed,rfl,?_,anchored⟩
    rw [List.map_nil,retarget_nil]
    simp
  · rintro after ⟨front,whole,keyedAfter,posts,links,held⟩
    obtain rfl : front = rows := by simpa using whole
    exact each after keyedAfter posts links held

-- Posts that no order names are removed, one after another.
theorem ends_removeAll {f : Unit → Operation β} {rows : Table Post} (anchored : Anchored start w)
    (unnamed : ∀ link ∈ w.links,link.names (rows.map (·.1)) = false)
    (each : ∀ after : World,after.orders = w.orders →
      (∀ key,after.posts.row key = if key ∈ rows.map (·.1) then none else w.posts.row key) → Anchored start after →
      World.ends allowed (f ()) (Anchored start) Q after)
    (stop : Broken allowed → ∀ e s,Q (.error e) s) :
    World.ends allowed ((forEach (fun entry => call (.removePost entry.1)) rows).bind f) (Anchored start) Q w := by
  have safe : ∀ {now : World} {front rest : Table Post},front ++ rest = rows → now.orders = w.orders →
      (∀ key,now.posts.row key = if key ∈ front.map (·.1) then none else w.posts.row key) → Anchored start now := by
    intro now front rest whole orders posts link member alive p named kept
    rw [World.links,orders] at member
    have apart : p ∉ front.map (·.1) := by
      intro listed
      have names := unnamed link member
      have inside : p ∈ rows.map (·.1) := by
        rw [←whole,List.map_append]
        exact List.mem_append_left _ listed
      rw [Link.names,alive,named,Option.any_some,List.contains_iff_mem.mpr inside] at names
      cases names
    rw [posts,if_neg apart]
    exact anchored link member alive p named kept
  refine ends_forEach_bind (fun rest now => ∃ front,front ++ rest = rows ∧ now.orders = w.orders ∧
    ∀ key,now.posts.row key = if key ∈ front.map (·.1) then none else w.posts.row key) ?_ ⟨[],rfl,rfl,fun _ => by simp⟩ ?_
  · rintro entry rest now ⟨front,whole,orders,posts⟩
    have whole' : (front ++ [entry]) ++ rest = rows := by simpa using whole
    have postsLater : ∀ key,Table.row (now.posts.select fun k _ => k != entry.1) key =
        if key ∈ (front ++ [entry]).map (·.1) then none else w.posts.row key := by
      intro key
      rw [row_removed,posts,List.map_append]
      by_cases same : key = entry.1
      · simp [same]
      · rw [if_neg same,List.map_cons,List.map_nil]
        simp only [List.mem_append,List.mem_singleton,same,or_false]
    have later : Anchored start {now with posts:=now.posts.select fun k _ => k != entry.1} := safe whole' orders postsLater
    exact ends_carriedLast (fun _ => rfl) (safe whole orders posts) later ⟨front ++ [entry],whole',orders,postsLater⟩ stop
  · rintro after ⟨front,whole,orders,posts⟩
    obtain rfl : front = rows := by simpa using whole
    exact each after orders posts (safe whole orders posts)
-- The posts of one region become one, the oldest, unless a call fails on the way.
theorem collapseRegion_ends {createdAt : Nat → Nat} {group duplicates : Table Post} {id : Nat} {post : Post}
    (sorted : byAge createdAt group = (id,post) :: duplicates) (apart : id ∉ duplicates.map (·.1)) (keyed : w.orders.Keyed)
    (anchored : Anchored start w) (there : w.posts.row id ≠ none) (few : (w.inPosts (id :: duplicates.map (·.1))).length ≤ maxFetchAll) :
    World.ends allowed (collapseRegion createdAt group) (Anchored start) (fun result after => match result with
      | .ok kept => kept = [(id,merged w id post (duplicates.map (·.1)))] ∧ after.orders.Keyed ∧ Anchored start after ∧
          after.links = w.links.map (Link.redirect (into id (duplicates.map (·.1)))) ∧
          ∀ key,after.posts.row key = if key = id then some (merged w id post (duplicates.map (·.1)))
            else if key ∈ duplicates.map (·.1) then none else w.posts.row key
      | .error _ => Broken allowed) w := by
  unfold collapseRegion
  rw [sorted]
  dsimp only
  split
  · rename_i alone
    obtain rfl := List.isEmpty_iff.mp alone
    have saved : Anchored start {w with posts:=w.posts.put id {post with branchId:=none}} := anchored_put anchored rfl rfl
    refine ends_carried (fun _ => rfl) anchored saved ⟨rfl,keyed,saved,?_,fun key => ?_⟩ fun broken _ _ => broken
    · change w.links = _
      rw [List.map_nil,redirect_still fun p => by simp [into],List.map_id']
    · rw [row_put]
      by_cases own : key = id
      · simp [own,merged]
      · simp [own,Ne.symm own]
  · rename_i several
    have filled : duplicates.map (·.1) ≠ [] := by simpa using several
    have few' : (w.inPosts (duplicates.map (·.1))).length ≤ maxFetchAll :=
      le_trans (inPosts_fewer fun _ member => List.mem_cons_of_mem id member) few
    refine ends_carried (fun _ => rfl) anchored anchored ?_ fun broken _ _ => broken
    refine ends_relink keyed anchored there (fun entry member => (mem_list keyed member).1) (fun moved keyedMoved posts links held => ?_)
      fun broken _ _ => broken
    rw [retarget_into keyed few'] at links
    have closed : ∀ p,into id (duplicates.map (·.1)) p ∈ id :: duplicates.map (·.1) ↔ p ∈ id :: duplicates.map (·.1) := by
      intro p
      unfold into
      split
      · rename_i member
        simp [member]
      · exact Iff.rfl
    obtain ⟨count,total⟩ := inPosts_redirect links closed
    refine ends_carried (fun _ => rfl) held held ?_ fun broken _ _ => broken
    rw [list_length (count ▸ few),list_total (count ▸ few),count,total]
    refine ends_removeAll held ?_ (fun removed orders rows heldRemoved => ?_) fun broken _ _ => broken
    · intro link member
      rw [links] at member
      obtain ⟨before,-,rfl⟩ := List.mem_map.mp member
      obtain ⟨key,alive,postId,price⟩ := before
      cases alive with
      | false => rfl
      | true =>
        cases postId with
        | none => rfl
        | some p =>
          have gone : into id (duplicates.map (·.1)) p ∉ duplicates.map (·.1) := by
            unfold into
            split
            · exact apart
            · assumption
          rw [Bool.eq_false_iff]
          simpa [Link.redirect,Link.names] using gone
    · have counted : merged w id post (duplicates.map (·.1)) = {post with
          branchId:=none,orderQuantity:=(w.inPosts (id :: duplicates.map (·.1))).length,
          postTotalPrice:=rowsTotal (w.inPosts (id :: duplicates.map (·.1)))} := if_neg filled
      rw [←counted]
      have saved : Anchored start {removed with posts:=removed.posts.put id (merged w id post (duplicates.map (·.1)))} :=
        anchored_put heldRemoved rfl rfl
      refine ends_carried (fun _ => rfl) heldRemoved saved ⟨rfl,?_,saved,?_,fun key => ?_⟩ fun broken _ _ => broken
      · rw [orders]
        exact keyedMoved
      · change removed.links = _
        rw [World.links,orders]
        exact links
      · rw [row_put,rows,posts]
        by_cases own : key = id
        · simp [own]
        · simp [own,Ne.symm own]
end Region

section Whole
variable {allowed : Fate → Prop} {createdAt : Nat → Nat} {w now after : World} {f : Nat → Nat} {canonicals group : Table Post}

theorem byAge_parts (createdAt : Nat → Nat) {group : Table Post} (filled : group ≠ []) :
    ∃ id post duplicates,byAge createdAt group = (id,post) :: duplicates ∧ ((id,post) :: duplicates).Perm group ∧
      ∀ entry ∈ group,createdAt id ≤ createdAt entry.1 := by
  have total : Std.Total fun (left right : Nat × Post) => createdAt left.1 ≤ createdAt right.1 := ⟨fun left right => Nat.le_total _ _⟩
  have trans : IsTrans (Nat × Post) fun left right => createdAt left.1 ≤ createdAt right.1 := ⟨fun _ _ _ => Nat.le_trans⟩
  have perm : (byAge createdAt group).Perm group := List.perm_insertionSort _ group
  have sorted : (byAge createdAt group).Pairwise fun left right => createdAt left.1 ≤ createdAt right.1 := List.pairwise_insertionSort _ group
  cases same : byAge createdAt group with
  | nil =>
    rw [same] at perm
    exact absurd perm.symm.eq_nil filled
  | cons oldest duplicates =>
    rw [same] at perm sorted
    refine ⟨oldest.1,oldest.2,duplicates,rfl,perm,fun entry member => ?_⟩
    rcases List.mem_cons.mp (perm.mem_iff.mpr member) with rfl | later
    · exact Nat.le_refl _
    · exact (List.pairwise_cons.mp sorted).1 entry later
theorem row_append (front rest : Table Post) (key : Nat) : Table.row (front ++ rest) key = (front.row key).or (rest.row key) := by
  unfold Table.row
  rw [List.find?_append]
  cases front.find? fun entry => entry.1 == key with
  | none => rfl
  | some entry => rfl

-- A group whose posts have become one: where its orders go, and what is stored and returned of each.
def Settled (createdAt : Nat → Nat) (w now : World) (f : Nat → Nat) (canonicals group : Table Post) : Prop :=
  ∃ id post duplicates,byAge createdAt group = (id,post) :: duplicates ∧ ∀ p ∈ group.map (·.1),f p = id ∧
    now.posts.row p = (if p = id then some (merged w id post (duplicates.map (·.1))) else none) ∧
    canonicals.row p = if p = id then some (merged w id post (duplicates.map (·.1))) else none
-- A post of no group so far.
structure Apart (w now : World) (f : Nat → Nat) (canonicals : Table Post) (p : Nat) : Prop where
  still : f p = p
  stored : now.posts.row p = w.posts.row p
  unlisted : canonicals.row p = none

theorem merged_same {id : Nat} {post : Post} {duplicates : List Nat} (links : now.links = w.links.map (Link.redirect f))
    (closed : ∀ p,f p ∈ id :: duplicates ↔ p ∈ id :: duplicates) : merged now id post duplicates = merged w id post duplicates := by
  obtain ⟨count,total⟩ := inPosts_redirect links closed
  rw [merged,merged,count,total]

-- Where the walk over the groups stands.
structure Walked (createdAt : Nat → Nat) (w : World) (front : List (Table Post)) (canonicals : Table Post) (now : World) : Prop where
  keyed : now.orders.Keyed
  anchored : Anchored w now
  moved : ∃ f,now.links = w.links.map (Link.redirect f) ∧ (∀ group ∈ front,Settled createdAt w now f canonicals group) ∧
    ∀ p,(∀ group ∈ front,p ∉ group.map (·.1)) → Apart w now f canonicals p

theorem walked_start (createdAt : Nat → Nat) (keyed : w.orders.Keyed) : Walked createdAt w [] [] w := by
  refine ⟨keyed,fun link member alive p named kept => kept,fun p => p,?_,fun group member => (nomatch member),fun p _ => ⟨rfl,rfl,rfl⟩⟩
  rw [redirect_still fun _ => rfl,List.map_id']
theorem byAge_first {id : Nat} {post : Post} {duplicates : Table Post} (sorted : byAge createdAt group = (id,post) :: duplicates) :
    (id,post) ∈ group := (List.perm_insertionSort _ group).mem_iff.mp (sorted ▸ List.mem_cons_self)
theorem settled_inside (settled : Settled createdAt w now f canonicals group) {p : Nat} (member : p ∈ group.map (·.1)) :
    f p ∈ group.map (·.1) := by
  obtain ⟨id,post,duplicates,sorted,each⟩ := settled
  rw [(each p member).1]
  exact List.mem_map_of_mem (byAge_first sorted)
-- The walk so far leaves the orders of a new group inside it.
theorem group_closed {front : List (Table Post)} {ids : List Nat} (settled : ∀ other ∈ front,Settled createdAt w now f canonicals other)
    (others : ∀ p,(∀ other ∈ front,p ∉ other.map (·.1)) → Apart w now f canonicals p)
    (apart : ∀ other ∈ front,∀ p ∈ ids,p ∉ other.map (·.1)) (p : Nat) : f p ∈ ids ↔ p ∈ ids := by
  by_cases visited : ∃ other ∈ front,p ∈ other.map (·.1)
  · obtain ⟨other,member,inside⟩ := visited
    have landed := settled_inside (settled other member) inside
    exact ⟨fun here => absurd landed (apart other member _ here),fun here => absurd inside (apart other member p here)⟩
  · have free : ∀ other ∈ front,p ∉ other.map (·.1) := fun other member inside => visited ⟨other,member,inside⟩
    rw [(others p free).still]
theorem walked_next {front : List (Table Post)} (walked : Walked createdAt w front canonicals now) (filled : group ≠ [])
    (distinct : group.Keyed) (apart : ∀ other ∈ front,∀ p ∈ group.map (·.1),p ∉ other.map (·.1))
    (stored : ∀ p ∈ group.map (·.1),w.posts.row p ≠ none) (few : (w.inPosts (group.map (·.1))).length ≤ maxFetchAll) :
    World.ends allowed (collapseRegion createdAt group) (Anchored w) (fun result after => match result with
      | .ok kept => Walked createdAt w (front ++ [group]) (canonicals ++ kept) after
      | .error _ => Broken allowed) now := by
  obtain ⟨id,post,duplicates,sorted,perm,-⟩ := byAge_parts createdAt filled
  obtain ⟨keyed,anchored,f,links,settled,others⟩ := walked
  have keys : (id :: duplicates.map (·.1)).Perm (group.map (·.1)) := perm.map Prod.fst
  have outside : id ∉ duplicates.map (·.1) := (List.nodup_cons.mp (keys.nodup_iff.mpr distinct)).1
  have free : ∀ p ∈ group.map (·.1),Apart w now f canonicals p := fun p member =>
    others p fun other listed => apart other listed p member
  have first : id ∈ group.map (·.1) := keys.mem_iff.mp List.mem_cons_self
  have closed : ∀ p,f p ∈ id :: duplicates.map (·.1) ↔ p ∈ id :: duplicates.map (·.1) :=
    group_closed settled others fun other listed p member => apart other listed p (keys.mem_iff.mp member)
  have there : now.posts.row id ≠ none := (free id first).stored ▸ stored id first
  have few' : (now.inPosts (id :: duplicates.map (·.1))).length ≤ maxFetchAll := by
    rw [(inPosts_redirect links closed).1]
    exact le_trans (inPosts_fewer fun p member => keys.mem_iff.mp member) few
  refine ends_mono (collapseRegion_ends sorted outside keyed anchored there few') fun result after done => ?_
  cases result with
  | error e => exact done
  | ok kept =>
    obtain ⟨rfl,keyedAfter,anchoredAfter,linksAfter,rows⟩ := done
    rw [merged_same links closed] at rows ⊢
    have elsewhere : ∀ p,p ∉ group.map (·.1) → p ≠ id ∧ p ∉ duplicates.map (·.1) := fun p outside =>
      ⟨fun same => outside (same ▸ first),fun later => outside (keys.mem_iff.mp (List.mem_cons_of_mem id later))⟩
    have unlisted : ∀ p value,p ≠ id → Table.row [(id,value)] p = (none : Option Post) := fun p value differs => by
      rw [row_cons,if_neg (Ne.symm differs),row_nil]
    refine ⟨keyedAfter,anchoredAfter,into id (duplicates.map (·.1)) ∘ f,?_,?_,?_⟩
    · rw [linksAfter,links,List.map_map]
      exact List.map_congr_left fun link _ => redirect_twice f _ link
    · intro other member
      rcases List.mem_append.mp member with old | new
      · obtain ⟨id',post',duplicates',sorted',each⟩ := settled other old
        refine ⟨id',post',duplicates',sorted',fun p inside => ?_⟩
        obtain ⟨heir,row,canonical⟩ := each p inside
        have far : ∀ q ∈ other.map (·.1),q ≠ id ∧ q ∉ duplicates.map (·.1) := fun q within =>
          elsewhere q fun here => apart other old q here within
        refine ⟨?_,?_,?_⟩
        · rw [Function.comp_apply,heir,into,if_neg (far id' (List.mem_map_of_mem (byAge_first sorted'))).2]
        · rw [rows,if_neg (far p inside).1,if_neg (far p inside).2,row]
        · rw [row_append,canonical,unlisted p _ (far p inside).1,Option.or_none]
      · obtain rfl : other = group := by simpa using new
        refine ⟨id,post,duplicates,sorted,fun p inside => ?_⟩
        have alone := free p inside
        have place := keys.mem_iff.mpr inside
        rw [Function.comp_apply,alone.still,rows,row_append,alone.unlisted,Option.none_or,row_cons,row_nil,into]
        by_cases same : p = id
        · rw [same,if_neg outside,if_pos rfl,if_pos rfl]
          exact ⟨rfl,rfl,rfl⟩
        · have later : p ∈ duplicates.map (·.1) := (List.mem_cons.mp place).resolve_left same
          rw [if_pos later,if_neg same,if_pos later,if_neg same,if_neg (Ne.symm same)]
          exact ⟨rfl,rfl,rfl⟩
    · intro p none
      have alone := others p fun other member => none other (List.mem_append_left _ member)
      obtain ⟨differs,later⟩ := elsewhere p (none group (List.mem_append_right _ List.mem_cons_self))
      refine ⟨?_,?_,?_⟩
      · rw [Function.comp_apply,alone.still,into,if_neg later]
      · rw [rows,if_neg differs,if_neg later,alone.stored]
      · rw [row_append,alone.unlisted,unlisted p _ differs,Option.none_or]

-- The posts of a region, and what a collapse leaves of them.
def ofRegion (posts : Table Post) (regionId : Nat) : Table Post := posts.filter fun entry => entry.2.regionId == some regionId
structure Survives (createdAt : Nat → Nat) (posts kept : Table Post) (w after : World) (regionId : Nat) (survivor : Nat × Post) : Prop where
  listed : survivor ∈ kept
  own : survivor.2.regionId = some regionId
  stored : after.posts.row survivor.1 = some survivor.2
  oldest : ∀ entry ∈ ofRegion posts regionId,createdAt survivor.1 ≤ createdAt entry.1
  only : ∀ entry ∈ ofRegion posts regionId,entry.1 ∈ kept.map (·.1) → entry.1 = survivor.1
  moved : ∀ id order,w.order id = some order → (∃ p ∈ (ofRegion posts regionId).map (·.1),order.postId = some p) →
    ∃ there,after.order id = some there ∧ there.postId = some survivor.1
  counted : 2 ≤ (ofRegion posts regionId).length →
    survivor.2.orderQuantity = (w.inPosts ((ofRegion posts regionId).map (·.1))).length ∧
    survivor.2.postTotalPrice = rowsTotal (w.inPosts ((ofRegion posts regionId).map (·.1)))
structure Collapsed (createdAt : Nat → Nat) (posts kept : Table Post) (w after : World) : Prop where
  within : (kept.map (·.1)).Sublist (posts.map (·.1))
  unzoned : ∀ entry ∈ posts,entry.2.regionId = none → entry ∈ kept ∧ after.posts.row entry.1 = some entry.2
  regions : ∀ regionId,ofRegion posts regionId ≠ [] → ∃ survivor,Survives createdAt posts kept w after regionId survivor

def zones (posts : Table Post) : List (Option Nat × Table Post) :=
  groupBy (fun entry => entry.2.regionId) (posts.filter fun entry => entry.2.regionId.isSome)
def returnedOf (posts canonicals : Table Post) : Table Post :=
  posts.filterMap fun entry => if entry.2.regionId.isNone then some entry else canonicals.find? fun canonical => canonical.1 == entry.1
theorem zones_region {posts : Table Post} {zone : Option Nat × Table Post} (member : zone ∈ zones posts) :
    ∃ regionId,zone = (some regionId,ofRegion posts regionId) := by
  obtain ⟨entry,inside⟩ := List.exists_mem_of_ne_nil _ (groupBy_filled member)
  have rows := groupBy_parts member
  rw [rows] at inside
  obtain ⟨zoned,own⟩ := List.mem_filter.mp inside
  obtain ⟨regionId,there⟩ := Option.isSome_iff_exists.mp (List.mem_filter.mp zoned).2
  have first : zone.1 = some regionId := by
    rw [there] at own
    exact (beq_iff_eq.mp own).symm
  refine ⟨regionId,Prod.ext first ?_⟩
  rw [rows,first,List.filter_filter]
  refine List.filter_congr fun other _ => ?_
  cases other.2.regionId with
  | none => rfl
  | some _ => simp
theorem zones_cover {posts : Table Post} {regionId : Nat} (filled : ofRegion posts regionId ≠ []) :
    (some regionId,ofRegion posts regionId) ∈ zones posts := by
  obtain ⟨entry,inside⟩ := List.exists_mem_of_ne_nil _ filled
  obtain ⟨member,own⟩ := List.mem_filter.mp inside
  have there : entry.2.regionId = some regionId := by simpa using own
  obtain ⟨zone,listed,within⟩ := groupBy_covers (fun entry : Nat × Post => entry.2.regionId)
    (List.mem_filter.mpr ⟨member,by rw [there]; rfl⟩ : entry ∈ posts.filter fun entry => entry.2.regionId.isSome)
  obtain ⟨other,rfl⟩ := zones_region listed
  have same : entry.2.regionId = some other := by simpa using (List.mem_filter.mp within).2
  cases there.symm.trans same
  exact listed

theorem collapse_ends {posts : Table Post} (keyed : w.orders.Keyed) (distinct : posts.Keyed)
    (stored : ∀ entry ∈ posts,w.posts.row entry.1 = some entry.2)
    (few : ∀ regionId,(w.inPosts ((ofRegion posts regionId).map (·.1))).length ≤ maxFetchAll) :
    World.ends allowed (collapseDuplicateNewPosts createdAt posts) (Anchored w) (fun result after => match result with
      | .ok kept => ∃ canonicals,kept = returnedOf posts canonicals ∧ Walked createdAt w ((zones posts).map (·.2)) canonicals after
      | .error _ => Broken allowed) w := by
  have keys : ((zones posts).map (·.1)).Nodup := by
    rw [zones,groupBy_keys]
    exact Batches.eraseDups_nodup _
  unfold collapseDuplicateNewPosts
  refine ends_collect_bind (fun ys rest now => ∃ front,front ++ rest = zones posts ∧ Walked createdAt w (front.map (·.2)) ys.flatten now)
    ?_ ⟨[],rfl,walked_start createdAt keyed⟩ ?_
  · rintro ys zone rest now ⟨front,whole,walked⟩
    have member : zone ∈ zones posts := whole ▸ List.mem_append_right front List.mem_cons_self
    obtain ⟨regionId,same⟩ := zones_region member
    have inside : ∀ entry ∈ zone.2,entry ∈ posts := fun entry listed => by
      rw [same] at listed
      exact (List.mem_filter.mp listed).1
    have part : zone.2.Sublist posts := by
      rw [same]
      exact List.filter_sublist
    have zonedKeys : ((posts.filter fun entry => entry.2.regionId.isSome).map (·.1)).Nodup :=
      List.Nodup.sublist (List.filter_sublist.map _) distinct
    -- the zones before it hold other posts
    have apart : ∀ other ∈ front.map (·.2),∀ p ∈ zone.2.map (·.1),p ∉ other.map (·.1) := by
      intro other listed p here there
      obtain ⟨before,earlier,rfl⟩ := List.mem_map.mp listed
      obtain ⟨x,within,rfl⟩ := List.mem_map.mp here
      obtain ⟨y,inOther,named⟩ := List.mem_map.mp there
      have differs : zone.1 ≠ before.1 := by
        rw [←whole,List.map_append,List.map_cons] at keys
        intro equal
        exact (List.disjoint_of_nodup_append keys) (List.mem_map_of_mem earlier) (equal ▸ List.mem_cons_self)
      have listed : before ∈ zones posts := whole ▸ List.mem_append_left _ earlier
      exact groupBy_apart zonedKeys member listed differs within inOther named.symm
    have present : ∀ p ∈ zone.2.map (·.1),w.posts.row p ≠ none := by
      intro p listed
      obtain ⟨entry,within,rfl⟩ := List.mem_map.mp listed
      rw [stored entry (inside entry within)]
      exact Option.some_ne_none _
    have fits : (w.inPosts (zone.2.map (·.1))).length ≤ maxFetchAll := by
      rw [same]
      exact few regionId
    refine ends_mono (walked_next walked (groupBy_filled member) (List.Nodup.sublist (part.map _) distinct) apart present fits)
      fun result after done => ?_
    cases result with
    | error e => exact done
    | ok kept =>
      refine ⟨front ++ [zone],by simpa using whole,?_⟩
      rw [List.map_append,List.flatten_append]
      simpa using done
  · rintro ys after ⟨front,whole,walked⟩
    obtain rfl : front = zones posts := by simpa using whole
    exact ⟨ys.flatten,rfl,walked⟩

theorem inPosts_members {ids others : List Nat} (same : ∀ p,p ∈ ids ↔ p ∈ others) : w.inPosts ids = w.inPosts others := by
  refine List.filter_congr fun entry _ => congrArg (World.live entry.1 entry.2 && ·) ?_
  cases entry.2.postId with
  | none => rfl
  | some p =>
    rw [Option.any_some,Option.any_some,Bool.eq_iff_iff,List.contains_iff_mem,List.contains_iff_mem]
    exact same p
theorem returnedOf_names {canonicals : Table Post} {x y : Nat × Post}
    (same : (if x.2.regionId.isNone then some x else canonicals.find? fun canonical => canonical.1 == x.1) = some y) : y.1 = x.1 := by
  split at same
  · cases same
    rfl
  · simpa using List.find?_some same
theorem merged_regionId (w : World) (id : Nat) (post : Post) (duplicates : List Nat) :
    (merged w id post duplicates).regionId = post.regionId := by
  unfold merged
  split
  · rfl
  · rfl

theorem survives {posts : Table Post} {regionId : Nat} (distinct : posts.Keyed) (keyedAfter : after.orders.Keyed)
    (links : after.links = w.links.map (Link.redirect f)) (filled : ofRegion posts regionId ≠ [])
    (settled : Settled createdAt w after f canonicals (ofRegion posts regionId)) :
    ∃ survivor,Survives createdAt posts (returnedOf posts canonicals) w after regionId survivor := by
  obtain ⟨id,post,duplicates,sorted,each⟩ := settled
  obtain ⟨id',post',duplicates',sorted',perm,least⟩ := byAge_parts createdAt filled
  cases sorted.symm.trans sorted'
  obtain ⟨member,zoned⟩ := List.mem_filter.mp (byAge_first sorted)
  have own : post.regionId = some regionId := by simpa using zoned
  obtain ⟨-,stored,canonical⟩ := each id (List.mem_map_of_mem (byAge_first sorted))
  rw [if_pos rfl] at stored canonical
  refine ⟨(id,merged w id post (duplicates.map (·.1))),?_,?_,stored,least,?_,?_,?_⟩
  · refine List.mem_filterMap.mpr ⟨(id,post),member,?_⟩
    rw [if_neg (by rw [own]; simp)]
    exact found_row canonical
  · rw [merged_regionId]
    exact own
  · intro entry inside kept
    obtain ⟨present,region⟩ := List.mem_filter.mp inside
    obtain ⟨returned,listed,same⟩ := List.mem_map.mp kept
    obtain ⟨x,source,answered⟩ := List.mem_filterMap.mp listed
    obtain rfl : x = entry := List.inj_on_of_nodup_map distinct source present ((returnedOf_names answered).symm.trans same)
    have row := (each x.1 (List.mem_map_of_mem inside)).2.2
    by_contra differs
    rw [if_neg differs] at row
    have there : x.2.regionId = some regionId := by simpa using region
    rw [if_neg (by rw [there]; simp)] at answered
    unfold Table.row at row
    rw [answered] at row
    cases row
  · rintro key order there ⟨p,inside,named⟩
    obtain ⟨link,alive⟩ := order_link there
    have moved : (linkOf (key,order)).redirect f ∈ after.links := links ▸ List.mem_map_of_mem link
    obtain ⟨later,found,same⟩ := link_order keyedAfter moved alive
    refine ⟨later,found,?_⟩
    have post := congrArg Link.postId same
    simp only [linkOf,Link.redirect,alive,named,if_true,Option.map_some,(each p inside).1] at post
    exact post
  · intro several
    have keys : (id :: duplicates.map (·.1)).Perm ((ofRegion posts regionId).map (·.1)) := perm.map Prod.fst
    have more : duplicates.map (·.1) ≠ [] := by
      intro none
      rw [none] at keys
      have length := keys.length_eq
      simp only [List.length_cons,List.length_nil,List.length_map] at length
      omega
    rw [merged,if_neg more,inPosts_members fun p => keys.mem_iff]
    exact ⟨rfl,rfl⟩

theorem walked_collapsed {posts : Table Post} (distinct : posts.Keyed)
    (stored : ∀ entry ∈ posts,w.posts.row entry.1 = some entry.2)
    (walked : Walked createdAt w ((zones posts).map (·.2)) canonicals after) :
    Collapsed createdAt posts (returnedOf posts canonicals) w after := by
  obtain ⟨keyedAfter,-,f,links,settled,others⟩ := walked
  refine ⟨filterMap_names _ (fun x y same => returnedOf_names same) posts,?_,fun regionId filled => ?_⟩
  · intro entry member unzoned
    refine ⟨List.mem_filterMap.mpr ⟨entry,member,by rw [unzoned]; rfl⟩,?_⟩
    have free : ∀ group ∈ (zones posts).map (·.2),entry.1 ∉ group.map (·.1) := by
      intro group listed inside
      obtain ⟨zone,there,rfl⟩ := List.mem_map.mp listed
      obtain ⟨regionId,rfl⟩ := zones_region there
      obtain ⟨other,within,same⟩ := List.mem_map.mp inside
      obtain ⟨present,own⟩ := List.mem_filter.mp within
      obtain rfl : other = entry := List.inj_on_of_nodup_map distinct present member same
      rw [unzoned] at own
      cases own
    rw [(others entry.1 free).stored]
    exact stored entry member
  · exact survives distinct keyedAfter links filled (settled _ (List.mem_map.mpr ⟨_,zones_cover filled,rfl⟩))

end Whole

theorem collapse_loses_nothing (createdAt : Nat → Nat) {posts : Table Post} {w : World} (keyed : w.orders.Keyed) (distinct : posts.Keyed)
    (stored : ∀ entry ∈ posts,w.posts.row entry.1 = some entry.2)
    (few : ∀ regionId,(w.inPosts ((ofRegion posts regionId).map (·.1))).length ≤ maxFetchAll) :
    (∀ picks : List Nat,∃ kept,(w.run (collapseDuplicateNewPosts createdAt posts) (picks.map .goes)).2.1 = .ok kept ∧
      Collapsed createdAt posts kept w (w.run (collapseDuplicateNewPosts createdAt posts) (picks.map .goes)).1) ∧
    ∀ fates id order p,(w.run (collapseDuplicateNewPosts createdAt posts) fates).1.order id = some order → order.postId = some p →
      w.posts.row p ≠ none → (w.run (collapseDuplicateNewPosts createdAt posts) fates).1.posts.row p ≠ none := by
  constructor
  · intro picks
    have goes : ∀ fate ∈ picks.map Fate.goes,undisturbed fate := by
      intro fate member
      obtain ⟨pick,-,same⟩ := List.mem_map.mp member
      exact ⟨pick,same.symm⟩
    have whole : World.ends undisturbed (collapseDuplicateNewPosts createdAt posts) (Anchored w) _ w := collapse_ends keyed distinct stored few
    have ends := ends_exec whole goes ⟨0,rfl⟩
    cases result : (w.run (collapseDuplicateNewPosts createdAt posts) (picks.map .goes)).2.1 with
    | error e =>
      rw [result] at ends
      exact absurd ends undisturbed_whole
    | ok kept =>
      rw [result] at ends
      obtain ⟨canonicals,rfl,walked⟩ := ends
      exact ⟨_,rfl,walked_collapsed distinct stored walked⟩
  · intro fates id order p here named kept
    have anchored : Anchored w w := fun _ _ _ _ _ there => there
    have whole : World.ends anyFate (collapseDuplicateNewPosts createdAt posts) (Anchored w) _ w := collapse_ends keyed distinct stored few
    have held := run_always whole anchored fates
    obtain ⟨link,alive⟩ := order_link here
    exact held _ link alive p named kept

-- Two posts of one region, with an order each.
def twins : World :=
  {posts:=[(5,emptyPost 0 (some 3) none .new),(6,emptyPost 0 (some 3) none .new)],nextPost:=7,
   orders:=[(11,sampleOrder),(12,{sampleOrder with postId:=some 6})],assignments:=[],couriers:=[],lookups:=sampleLookups 3000000 1000}
theorem collapse_loses_nothing_twins : ∃ kept,
    (twins.run (collapseDuplicateNewPosts id twins.posts.reverse) ([].map .goes)).2.1 = .ok kept ∧
    Collapsed id twins.posts.reverse kept twins (twins.run (collapseDuplicateNewPosts id twins.posts.reverse) ([].map .goes)).1 := by
  have small : ∀ ids,(twins.inPosts ids).length ≤ maxFetchAll := fun ids =>
    le_trans (List.length_filter_le _ _) (by decide : twins.orders.length ≤ maxFetchAll)
  exact (collapse_loses_nothing id (by decide) (by decide) (by decide) fun _ => small _).1 []

end Elchi.Logistics
