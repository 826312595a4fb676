import MeshGauges.Rendering

/-! What labels say about the load balancer of a traffic policy.

A load balancer either names a simple algorithm or has a consistent hash, whose members have an older
and a newer spelling. The first spelling that is present is used. -/

set_option autoImplicit false

namespace MeshGauges.LoadBalancer

inductive Facet where
  | algorithm | identifier | ringSize
  deriving Repr, DecidableEq

def consistentHash (loadBalancer : Tree) : Tree :=
  loadBalancer.lookupFirst [["consistentHash"], ["consistent_hash"]]

def hashedHeader (hash : Tree) : Tree :=
  hash.lookupFirst [["httpHeader"], ["httpHeaderName"], ["http_header"]]

def smallestRing (hash : Tree) : Tree :=
  hash.lookupFirst [["minimumRingSize"], ["minimum_ring_size"]]

/-- The text of a facet. An absent load balancer has empty texts only. -/
def Facet.text (facet : Facet) (loadBalancer : Tree) : String :=
  let hash := consistentHash loadBalancer
  match facet with
  | .algorithm =>
      if loadBalancer.isNull then "" else if hash.isNull then "simple" else "consistent_hash"
  | .identifier =>
      Rendering.scalar (if hash.isNull then loadBalancer.member "simple" else hashedHeader hash)
  | .ringSize => Rendering.scalar (smallestRing hash)

end MeshGauges.LoadBalancer
