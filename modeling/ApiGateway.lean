import ApiGateway.Strings
import ApiGateway.Time
import ApiGateway.Net
import ApiGateway.Config
import ApiGateway.Auth
import ApiGateway.Base64
import ApiGateway.Crypto
import ApiGateway.Json
import ApiGateway.Auth.Jwt
import ApiGateway.Http
import ApiGateway.RateLimit.SlidingWindow
import ApiGateway.RateLimit.FixedWindow
import ApiGateway.RateLimit.Distributed
import ApiGateway.RateLimit.TokenBucket
import ApiGateway.RateLimit.Manager
import ApiGateway.RateLimit.Isolation
import ApiGateway.Middleware
import ApiGateway.Middleware.RequestID
import ApiGateway.Circuit
import ApiGateway.Circuit.Flight
import ApiGateway.Circuit.Recovery
import ApiGateway.Circuit.Monitor
import ApiGateway.Cache
import ApiGateway.Cache.LRU
import ApiGateway.LoadBalancer
import ApiGateway.LoadBalancer.RoundRobin
import ApiGateway.LoadBalancer.Weighted
import ApiGateway.LoadBalancer.LeastConnections
import ApiGateway.Proxy
import ApiGateway.Proxy.Connections
import ApiGateway.Proxy.Headers
import ApiGateway.Proxy.Forward
import ApiGateway.Gateway.Router
import ApiGateway.Gateway.Serve
import ApiGateway.Gateway.Access
import ApiGateway.Gateway.Limits
import ApiGateway.Gateway.Breaker
import ApiGateway.Gateway.Reload
