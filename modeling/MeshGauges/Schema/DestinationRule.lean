import MeshGauges.Schema.Basic

/-! The families of destination rules.

The four sections of a traffic policy (load balancer, connection pool, outlier detection, transport
security) have the same labels at the top level and for each port, so their builders take the scope and
the path of the policy. -/

set_option autoImplicit false

namespace MeshGauges.DestinationRule

def identity : Label := .resourceId "destination_rule"

def trafficPolicy : Path := ["trafficPolicy"]

/-- The labels of a load balancer; the one for the ring size has its own name in each family. -/
def loadBalancerLabels (scope : String) (policy : Path) (ringLabel : String) : List Label :=
  [⟨"lb_type", .loadBalancer scope policy .algorithm⟩,
   ⟨"lb_identifier", .loadBalancer scope policy .identifier⟩,
   ⟨ringLabel, .loadBalancer scope policy .ringSize⟩]

def connectionPoolLabels (scope : String) (policy : Path) : List Label :=
  let pool := policy ++ ["connectionPool"]
  [.of .scalar "max_connections" scope (pool ++ ["tcp", "maxConnections"]),
   .of .duration "connect_timeout" scope (pool ++ ["tcp", "connectTimeout"]),
   .of .scalar "http1_max_pending_requests" scope (pool ++ ["http", "http1MaxPendingRequests"]),
   .of .scalar "http2_max_requests" scope (pool ++ ["http", "http2MaxRequests"]),
   .of .scalar "max_requests_per_connection" scope (pool ++ ["http", "maxRequestsPerConnection"]),
   .of .scalar "max_retries" scope (pool ++ ["http", "maxRetries"])]

/-- A label of outlier detection. Settings stand in an http block or, in newer objects, without one. -/
def outlierLabel (form : Form) (name scope : String) (policy : Path) (setting : String) : Label :=
  let outlier := policy ++ ["outlierDetection"]
  .of form name scope (outlier ++ ["http", setting]) [outlier ++ [setting]]

def outlierLabels (scope : String) (policy : Path) : List Label :=
  [outlierLabel .scalar "consecutive_errors" scope policy "consecutiveErrors",
   outlierLabel .duration "interval" scope policy "interval",
   outlierLabel .duration "base_ejection_time" scope policy "baseEjectionTime",
   outlierLabel .scalar "max_ejection_percent" scope policy "maxEjectionPercent"]

def securityLabels (scope : String) (policy : Path) : List Label :=
  let tls := policy ++ ["tls"]
  [.of .scalar "mode" scope (tls ++ ["mode"]),
   .of .scalar "client_certificate" scope (tls ++ ["clientCertificate"]),
   .of .scalar "private_key" scope (tls ++ ["privateKey"]),
   .of .scalar "ca_certificates" scope (tls ++ ["caCertificates"]),
   .of .joined "subject_alt_names" scope (tls ++ ["subjectAltNames"]),
   .of .scalar "sni" scope (tls ++ ["sni"])]

def info : FamilySchema where
  name := "istio_pilot_destination_rule_info"
  documentation := "Information about Pilot DestinationRules"
  labels := [identity, .resourceSpace]

def host : FamilySchema where
  name := "istio_pilot_destination_rule_host"
  documentation := "Information about Host in Pilot DestinationRules"
  labels := [identity, .of .scalar "host" "spec" ["host"]]

def loadBalancer : FamilySchema where
  name := "istio_pilot_destination_rule_traffic_policy_loadbalancer"
  documentation := "Information about LoadBalancer in Pilot DestinationRules"
  labels := identity :: loadBalancerLabels "spec" trafficPolicy "consistent_hash_minimum_ring_size"
  requires := [("spec", trafficPolicy ++ ["loadBalancer"])]

def connectionPool : FamilySchema where
  name := "istio_pilot_destination_rule_traffic_policy_connection_pool_settings"
  documentation := "Information about ConnectionPoolSettings in Pilot DestinationRules"
  labels := identity :: connectionPoolLabels "spec" trafficPolicy
  requires := [("spec", trafficPolicy ++ ["connectionPool"])]

def outlierDetection : FamilySchema where
  name := "istio_pilot_destination_rule_traffic_policy_outlier_detection"
  documentation := "Information about OutlierDetection in Pilot DestinationRules"
  labels := identity :: outlierLabels "spec" trafficPolicy
  requires := [("spec", trafficPolicy ++ ["outlierDetection"])]

def transportSecurity : FamilySchema where
  name := "istio_pilot_destination_rule_traffic_policy_tls_settings"
  documentation := "Information about TLS Settings of TrafficPolicy in Pilot DestinationRules"
  labels := identity :: securityLabels "spec" trafficPolicy
  requires := [("spec", trafficPolicy ++ ["tls"])]

def portLevelSettings : FamilySchema where
  name := "istio_pilot_destination_rule_traffic_policy_port_level_settings"
  documentation := "Information about PortTrafficPolicy in Pilot DestinationRules"
  labels :=
    [identity,
     .of .scalar "port_name" "port_policy" ["port", "name"],
     .of .scalar "port_number" "port_policy" ["port", "number"]] ++
    loadBalancerLabels "port_policy" [] "lb_consistent_hash_minimum_ring_size" ++
    connectionPoolLabels "port_policy" [] ++ outlierLabels "port_policy" [] ++
    securityLabels "port_policy" []
  requires := [("spec", trafficPolicy)]
  fanOut := [⟨"port_policy", "spec", trafficPolicy ++ ["portLevelSettings"]⟩]

def subset : FamilySchema where
  name := "istio_pilot_destination_rule_subset"
  documentation := "Information about Subsets in Pilot DestinationRules"
  labels :=
    [identity, .of .scalar "subset" "subset" ["name"], .of .pairs "labels" "subset" ["labels"]]
  fanOut := [⟨"subset", "spec", ["subsets"]⟩]

def schema : ResourceSchema where
  kind := "destination_rule"
  families :=
    [info, host, loadBalancer, connectionPool, outlierDetection, transportSecurity,
     portLevelSettings, subset]

end MeshGauges.DestinationRule
