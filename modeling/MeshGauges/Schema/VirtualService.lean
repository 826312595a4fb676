import MeshGauges.Schema.Basic

/-! The families of virtual services. -/

set_option autoImplicit false

namespace MeshGauges.VirtualService

def identity : List Label := [.resourceName "virtual_service", .resourceSpace]

def stringMatchLabels (field scope : String) : List Label :=
  ["exact", "prefix", "regex"].map fun way => .of .scalar (field ++ "_" ++ way) scope [field, way]

def destinationLabels (scope : String) : List Label :=
  [.of .scalar "destination_host" scope ["destination", "host"],
   .of .scalar "destination_subset" scope ["destination", "subset"],
   .of .scalar "destination_port_name" scope ["destination", "port", "name"],
   .of .scalar "destination_port_number" scope ["destination", "port", "number"],
   .of .scalar "weight" scope ["weight"]]

/-- The routes of a protocol, then the elements of one of their lists. -/
def routeFanOut (protocol listed : String) : List FanOut :=
  let scope := protocol ++ "_route"
  [⟨scope, "spec", [protocol]⟩, ⟨listed, scope, [listed]⟩]

def info : FamilySchema where
  name := "istio_pilot_virtual_service_info"
  documentation := "Information about Pilot VirtualServices"
  labels := identity

def host : FamilySchema where
  name := "istio_pilot_virtual_service_host"
  documentation := "Information about Hosts in Pilot VirtualServices"
  labels := identity ++ [.of .scalar "host" "host" []]
  fanOut := [⟨"host", "spec", ["hosts"]⟩]

def gateway : FamilySchema where
  name := "istio_pilot_virtual_service_gateway"
  documentation := "Information about Gateways in Pilot VirtualServices"
  labels := identity ++ [.of .scalar "gateway" "gateway" []]
  fanOut := [⟨"gateway", "spec", ["gateways"]⟩]

def httpMatch : FamilySchema where
  name := "istio_pilot_virtual_service_http_match_info"
  documentation := "Information about Pilot VirtualServices Http Match Info"
  labels := identity ++ stringMatchLabels "uri" "match" ++ stringMatchLabels "scheme" "match" ++
    stringMatchLabels "method" "match" ++ stringMatchLabels "authority" "match" ++
    [.of .headerMatches "headers" "match" ["headers"],
     .of .scalar "port" "match" ["port"],
     .of .pairs "source_labels" "match" ["sourceLabels"] [["source_labels"]],
     .of .joined "gateways" "match" ["gateways"]]
  fanOut := routeFanOut "http" "match"

def httpRoute : FamilySchema where
  name := "istio_pilot_virtual_service_http_route_info"
  documentation := "Information about Pilot VirtualServices Http Route Info"
  labels := identity ++ destinationLabels "route"
  fanOut := routeFanOut "http" "route"

def httpRoutePolicy : FamilySchema where
  name := "istio_pilot_virtual_service_http_route_policy"
  documentation :=
    "Information about timeouts, retries, redirects and rewrites of Pilot VirtualServices Http Routes"
  labels := identity ++
    [.of .duration "timeout" "http_route" ["timeout"],
     .of .scalar "retries_attempts" "http_route" ["retries", "attempts"],
     .of .duration "retries_per_try_timeout" "http_route" ["retries", "perTryTimeout"]
       [["retries", "per_try_timeout"]],
     .of .scalar "redirect_uri" "http_route" ["redirect", "uri"],
     .of .scalar "redirect_authority" "http_route" ["redirect", "authority"],
     .of .scalar "rewrite_uri" "http_route" ["rewrite", "uri"],
     .of .scalar "rewrite_authority" "http_route" ["rewrite", "authority"],
     .of .scalar "mirror_host" "http_route" ["mirror", "host"],
     .of .scalar "mirror_subset" "http_route" ["mirror", "subset"],
     .of .scalar "websocket_upgrade" "http_route" ["websocketUpgrade"] [["websocket_upgrade"]]]
  fanOut := [⟨"http_route", "spec", ["http"]⟩]

def tcpMatch : FamilySchema where
  name := "istio_pilot_virtual_service_tcp_match_info"
  documentation := "Information about Pilot VirtualServices Tcp Match Info"
  labels := identity ++
    [.of .scalar "destination_subnet" "match" ["destinationSubnet"] [["destination_subnet"]],
     .of .scalar "port" "match" ["port"],
     .of .scalar "source_subnet" "match" ["sourceSubnet"] [["source_subnet"]],
     .of .pairs "source_labels" "match" ["sourceLabels"] [["source_labels"]],
     .of .joined "gateways" "match" ["gateways"]]
  fanOut := routeFanOut "tcp" "match"

def tcpRoute : FamilySchema where
  name := "istio_pilot_virtual_service_tcp_route_info"
  documentation := "Information about Pilot VirtualServices Tcp Route Info"
  labels := identity ++ destinationLabels "route"
  fanOut := routeFanOut "tcp" "route"

def schema : ResourceSchema where
  kind := "virtual_service"
  families := [info, host, gateway, httpMatch, httpRoute, httpRoutePolicy, tcpMatch, tcpRoute]

end MeshGauges.VirtualService
